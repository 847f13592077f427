import QueueWorkerKit.Config.Env
import QueueWorkerKit.Library.SchemaReports

/-!
# Configuration errors without values

A malformed environment is refused with texts that never echo a value: Redis URLs and passwords are
secrets. Every text is one of a fixed list, which depends on no environment, so an error says which
checks have failed and nothing else: those of the fields first, and then those across the fields.

## Main definitions

* `envReports`, `dashboardReports`, `configReports`: the texts that there are

## Main results

* `loadEnv_reports`: **a configuration error is made of fixed texts**
-/

namespace QueueWorkerKit

open Ecma Schema

/-- The issue of a field that fails one check. -/
def oneReport (message : JsString) : List Issue := [failed message]

/-- The issue of a field that is none of its values. -/
def valueReport (message : JsString) : List Issue := [⟨[], message, false⟩]

/-- The issues of an integer. -/
def intReports (min max : ℕ) : List Issue :=
  [failed (js "must be an integer"), failed (js "must be a safe integer"),
    failed (js "must be >= " ++ decimal min), failed (js "must be <= " ++ decimal max)]

def boolReports : List Issue := valueReport (js "must be a boolean")

def notEmptyReports : List Issue := oneReport (js "must not be empty")

def secretReports : List Issue := oneReport (Check.min 1).message

/-- The issues of each field. -/
def envReports : List (JsString × List Issue) :=
  [(js "NODE_ENV", valueReport (enum.message nodeEnvs)),
    (js "HOST", notEmptyReports),
    (js "PORT", intReports 1 65535),
    (js "REDIS_URL",
      notEmptyReports ++ oneReport (js "must be a valid redis:// or rediss:// URL")),
    (js "LOG_LEVEL", valueReport (js "must be one of: " ++ join (js ", ") logLevels)),
    (js "LOG_PRETTY", boolReports),
    (js "QUEUE_PREFIX",
      notEmptyReports ++ oneReport (js "may only contain letters, digits and _ . : -")),
    (js "WORKER_CONCURRENCY", intReports 1 1000),
    (js "JOB_ATTEMPTS", intReports 1 50),
    (js "JOB_BACKOFF_DELAY_MS", intReports 0 3600000),
    (js "JOB_REMOVE_ON_COMPLETE_COUNT", intReports 0 1000000),
    (js "JOB_REMOVE_ON_FAIL_COUNT", intReports 0 1000000),
    (js "WORKER_RATE_LIMIT_MAX", intReports 1 1000000),
    (js "WORKER_RATE_LIMIT_DURATION_MS", intReports 1 3600000),
    (js "JOB_TIMEOUT_MS", intReports 100 3600000),
    (js "SHUTDOWN_TIMEOUT_MS", intReports 1000 300000),
    (js "DEAD_LETTER_MAX_ENTRIES", intReports 1 1000000),
    (js "ENABLE_JOB_SCHEDULERS", boolReports),
    (js "ENABLE_QUEUE_EVENTS", boolReports),
    (js "ENABLE_WORKER_METRICS_SERVER", boolReports),
    (js "WORKER_METRICS_HOST", notEmptyReports),
    (js "WORKER_METRICS_PORT", intReports 1 65535),
    (js "MAINTENANCE_CLEANUP_CRON", oneReport (js "must be a 5- or 6-field cron expression")),
    (js "ENABLE_BULL_BOARD", boolReports),
    (js "BULL_BOARD_USERNAME", secretReports),
    (js "BULL_BOARD_PASSWORD", secretReports)]

/-- The issues of a password in production. -/
def passwordReports : List Issue :=
  [(failed (js "must not be a well-known example password when NODE_ENV=production")).under
      (js "BULL_BOARD_PASSWORD"),
    (failed (js "must be at least " ++ decimal minProductionPasswordLength ++
      js " characters when NODE_ENV=production")).under (js "BULL_BOARD_PASSWORD")]

/-- The issues of the rule across the fields. -/
def dashboardReports : List Issue :=
  [required (js "BULL_BOARD_USERNAME")] ++
    ([required (js "BULL_BOARD_PASSWORD")] ++ passwordReports)

/-- Every text that a configuration error may have. -/
def configReports : List JsString := (fieldReports envReports ++ dashboardReports).map issueText

variable {platform : Platform} {P : Data → Prop}

/-! ## The fields -/

theorem reports_intFromEnv (min max : ℕ) :
    Reports IsText (intFromEnv min max) (intReports min max) := by
  rintro v ⟨text, rfl⟩
  simp only [intFromEnv]
  split
  · exact List.singleton_sublist.mpr (List.mem_cons_self ..)
  · next negative digits _ =>
    generalize Double.ofDigits negative digits = number
    -- of the last three, those that fail
    refine List.Sublist.trans ?_ (List.sublist_cons_self ..)
    exact List.filter_sublist.map fun check : Bool × JsString => failed check.2

theorem reports_intWithDefault (min max value : ℕ) :
    Reports (OrAbsent IsText) (intWithDefault min max value) (intReports min max) :=
  reports_withDefault _ (reports_intFromEnv min max)

theorem reports_stringbool (message : JsString) :
    Reports P (stringbool platform message) (valueReport message) := by
  intro v _
  cases v with
  | str text =>
    simp only [stringbool]
    split_ifs
    · exact List.nil_sublist _
    · exact List.nil_sublist _
    · exact List.Sublist.refl _
  | _ => exact List.Sublist.refl _

/-- A blank text is taken for absent. -/
theorem orAbsent_emptyToUndefined (v : Data) (hv : OrAbsent IsText v) :
    OrAbsent IsText (emptyToUndefined v) := by
  rcases hv with rfl | ⟨s, rfl⟩
  · exact Or.inl rfl
  · simp only [emptyToUndefined]
    split_ifs
    · exact Or.inl rfl
    · exact Or.inr ⟨s, rfl⟩

theorem reports_boolFromEnv (defaultValue : Option Bool) :
    Reports (OrAbsent IsText) (boolFromEnv platform defaultValue) boolReports := by
  refine reports_preprocess ?_ orAbsent_emptyToUndefined
  cases defaultValue with
  | none => exact reports_optional (reports_stringbool _)
  | some b => exact reports_withDefault _ (reports_stringbool _)

theorem reports_optionalSecret : Reports (OrAbsent IsText) optionalSecret secretReports :=
  reports_preprocess (reports_optional (reports_string _)) orAbsent_emptyToUndefined

theorem reports_cronSchema :
    Reports IsText cronSchema (oneReport (js "must be a 5- or 6-field cron expression")) := by
  rintro v ⟨text, rfl⟩
  simp only [cronSchema]
  split_ifs
  · exact List.nil_sublist _
  · exact List.Sublist.refl _

/-- The fields of an environment may be absent, and report what is listed for them. -/
theorem fieldsReport_baseEnvSchema :
    FieldsReport (OrAbsent IsText) (baseEnvSchema platform) envReports := by
  have hint := reports_intWithDefault
  have hbool := @reports_boolFromEnv platform
  have hnotEmpty : ∀ value, Reports (OrAbsent IsText) (.withDefault value (.string [notEmpty]))
      notEmptyReports := fun value => reports_withDefault value (reports_string _)
  refine .cons ⟨rfl, rfl, reports_withDefault _ (reports_oneOf _ _)⟩ ?_
  refine .cons ⟨rfl, rfl, hnotEmpty _⟩ (.cons ⟨rfl, rfl, hint _ _ _⟩ ?_)
  refine .cons ⟨rfl, rfl, reports_withDefault _ (reports_string _)⟩ ?_
  refine .cons ⟨rfl, rfl, reports_withDefault _ (reports_oneOf _ _)⟩ ?_
  refine .cons ⟨rfl, rfl, hbool none⟩ ?_
  refine .cons ⟨rfl, rfl, reports_withDefault _ (reports_string _)⟩ ?_
  refine .cons ⟨rfl, rfl, hint _ _ _⟩ (.cons ⟨rfl, rfl, hint _ _ _⟩ ?_)
  refine .cons ⟨rfl, rfl, hint _ _ _⟩ (.cons ⟨rfl, rfl, hint _ _ _⟩ ?_)
  refine .cons ⟨rfl, rfl, hint _ _ _⟩ (.cons ⟨rfl, rfl, hint _ _ _⟩ ?_)
  refine .cons ⟨rfl, rfl, hint _ _ _⟩ (.cons ⟨rfl, rfl, hint _ _ _⟩ ?_)
  refine .cons ⟨rfl, rfl, hint _ _ _⟩ (.cons ⟨rfl, rfl, hint _ _ _⟩ ?_)
  refine .cons ⟨rfl, rfl, hbool (some true)⟩ (.cons ⟨rfl, rfl, hbool (some true)⟩ ?_)
  refine .cons ⟨rfl, rfl, hbool (some true)⟩ (.cons ⟨rfl, rfl, hnotEmpty _⟩ ?_)
  refine .cons ⟨rfl, rfl, hint _ _ _⟩ ?_
  refine .cons ⟨rfl, rfl, reports_withDefault _ reports_cronSchema⟩ ?_
  refine .cons ⟨rfl, rfl, hbool (some false)⟩ ?_
  exact .cons ⟨rfl, rfl, reports_optionalSecret⟩ (.cons ⟨rfl, rfl, reports_optionalSecret⟩ .nil)

/-! ## The rule across the fields -/

theorem sublist_passwordIssues (password : JsString) :
    (passwordIssues platform password).Sublist passwordReports := by
  unfold passwordIssues
  split_ifs
  · exact List.singleton_sublist.mpr (List.mem_cons_self ..)
  · exact List.singleton_sublist.mpr (List.mem_cons_of_mem _ (List.mem_cons_self ..))
  · exact List.nil_sublist _

theorem sublist_dashboardIssues (env : Data) :
    (dashboardIssues platform env).Sublist dashboardReports := by
  unfold dashboardIssues
  split
  · refine List.Sublist.append ?_ ?_
    · split_ifs
      · exact List.Sublist.refl [required (js "BULL_BOARD_USERNAME")]
      · exact List.nil_sublist _
    · split
      · split_ifs
        · exact (sublist_passwordIssues _).trans (List.sublist_append_right ..)
        · exact List.nil_sublist _
      · exact List.sublist_append_left [required (js "BULL_BOARD_PASSWORD")] passwordReports
  · exact List.nil_sublist _

/-! ## Loading -/

/-- The values of an environment are texts or absent. -/
theorem orAbsent_toData (source : Source) (key : JsString) :
    OrAbsent IsText (source.toData.get key) := by
  rw [get_toData]
  cases source.variable key with
  | none => exact Or.inl rfl
  | some text => exact Or.inr ⟨text, rfl⟩

theorem reports_envSchema : Reports
    (fun v => (∃ props, v = .obj props) ∧ ∀ key, OrAbsent IsText (v.get key)) (envSchema platform)
    (fieldReports envReports ++ dashboardReports) :=
  reports_superRefine (reports_object fieldsReport_baseEnvSchema) sublist_dashboardIssues

/-- **A configuration error is made of fixed texts**, whatever the environment: they come in the
order of the checks, and none has a value of the environment in it. -/
theorem loadEnv_reports (platform : Platform) (source : Source) {error : ConfigError}
    (h : loadEnv platform source = .error error) : error.issues.Sublist configReports := by
  unfold loadEnv at h
  split at h
  · next issues hissues =>
    obtain rfl := Except.error.inj h
    obtain ⟨rfl, -⟩ := parse_error.mp hissues
    exact (reports_envSchema _ ⟨⟨_, rfl⟩, orAbsent_toData source⟩).map issueText
  · cases h

/-- A platform on which a text without a scheme is no URL. -/
def schemeless : Platform := ⟨id, fun _ => none⟩

/-- A password in the place of the URL does not escape, and a dashboard without credentials is
reported beside it. -/
theorem loadEnv_reports_password : ∃ error,
    loadEnv schemeless [(js "HOST", some []), (js "REDIS_URL", some (js "s3cret")),
        (js "ENABLE_BULL_BOARD", some (js "true"))] = .error error ∧
      error.issues = [js "HOST must not be empty",
        js "REDIS_URL must be a valid redis:// or rediss:// URL",
        js "BULL_BOARD_USERNAME is required when ENABLE_BULL_BOARD is true",
        js "BULL_BOARD_PASSWORD is required when ENABLE_BULL_BOARD is true"] ∧
      error.issues.Sublist configReports := by
  obtain ⟨error, herror, hissues⟩ : ∃ error,
      loadEnv schemeless [(js "HOST", some []), (js "REDIS_URL", some (js "s3cret")),
          (js "ENABLE_BULL_BOARD", some (js "true"))] = .error error ∧
        error.issues = [js "HOST must not be empty",
          js "REDIS_URL must be a valid redis:// or rediss:// URL",
          js "BULL_BOARD_USERNAME is required when ENABLE_BULL_BOARD is true",
          js "BULL_BOARD_PASSWORD is required when ENABLE_BULL_BOARD is true"] := ⟨_, rfl, rfl⟩
  exact ⟨error, herror, hissues, loadEnv_reports _ _ herror⟩

end QueueWorkerKit
