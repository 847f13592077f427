import QueueWorkerKit.Library.Double
import QueueWorkerKit.Library.Schema

/-!
# The configuration of a process

`config/env.ts`: the variables of the environment are parsed by a schema with one field each, and
the dashboard by a rule across them. A blank boolean or secret is taken for absent before it is
parsed; a blank integer is refused.

## Main definitions

* `intFromEnv`, `boolFromEnv`, `redisUrlSchema`, `cronSchema`, `optionalSecret`: the fields
* `baseEnvSchema`, `envSchema`: the fields by name, and the rule across them
* `loadEnv`: the configuration, or the errors in it
-/

namespace QueueWorkerKit

open Ecma

/-- The parts of a URL that are read. -/
structure Url where
  protocol : JsString
  hostname : JsString

/-- What the language does with a text. -/
structure Platform where
  toLowerCase : JsString → JsString
  url : JsString → Option Url

def logLevels : List JsString :=
  [js "trace", js "debug", js "info", js "warn", js "error", js "fatal", js "silent"]

/-! ## The fields -/

/-- `/^\d+$/` -/
def isDigits (value : JsString) : Bool := !value.isEmpty && value.all isDigit

/-- `/^-?\d+$/`: the sign, and the digits. -/
def integerPattern (value : JsString) : Option (Bool × JsString) :=
  match value with
  | 0x2D :: digits => if isDigits digits then some (true, digits) else none
  | _ => if isDigits value then some (false, value) else none

/-- An integer within a bounded range. The number of a text that is no integer is not made, so its
range is not checked. -/
def intFromEnv (min max : ℕ) : Schema where
  run
    | .str value =>
      match integerPattern value with
      | none => ⟨.str value, [Schema.failed (js "must be an integer")]⟩
      | some (negative, digits) =>
        let number := Double.ofDigits negative digits
        { value := .num number.toNumber
          issues := ([(number.isSafeInteger, js "must be a safe integer"),
            (number.atLeast min, js "must be >= " ++ decimal min),
            (number.atMost max, js "must be <= " ++ decimal max)].filter fun check => !check.1).map
              fun check => Schema.failed check.2 }
    | v => ⟨v, [⟨[], js "must be an integer", false⟩]⟩
  isOptional := false

/-- An unset variable interpolates to the empty string, which means that it is not provided. -/
def emptyToUndefined : Data → Data
  | .str value => if trim value = [] then .undefined else .str value
  | value => value

/-- The texts of a boolean, up to case. -/
def truthy : List JsString :=
  [js "true", js "1", js "yes", js "on", js "y", js "enabled"]

def falsy : List JsString :=
  [js "false", js "0", js "no", js "off", js "n", js "disabled"]

/-- `z.stringbool` -/
def stringbool (platform : Platform) (message : JsString) : Schema where
  run
    | .str value =>
      if platform.toLowerCase value ∈ truthy then ⟨.bool true, []⟩
      else if platform.toLowerCase value ∈ falsy then ⟨.bool false, []⟩
      else ⟨.obj [], [⟨[], message, false⟩]⟩
    | v => ⟨v, [⟨[], message, false⟩]⟩
  isOptional := false

/-- A boolean, where a blank value falls through to the default of the field. -/
def boolFromEnv (platform : Platform) (defaultValue : Option Bool) : Schema :=
  .preprocess emptyToUndefined <|
    match defaultValue with
    | none => .optional (stringbool platform (js "must be a boolean"))
    | some b => .withDefault (.bool b) (stringbool platform (js "must be a boolean"))

def notEmpty : Schema.Check := .withMessage (js "must not be empty") (.min 1)

/-- The URL of a Redis, with or without TLS. -/
def isRedisUrl (platform : Platform) (value : JsString) : Bool :=
  match platform.url value with
  | none => false
  | some url =>
    (url.protocol = js "redis:" || url.protocol = js "rediss:") && 0 < url.hostname.length

def redisUrlSchema (platform : Platform) : Schema :=
  .string [notEmpty, .text (isRedisUrl platform) (js "must be a valid redis:// or rediss:// URL")]

/-- A cron expression, checked only for shape. -/
def cronSchema : Schema where
  run
    | .str text =>
      let value := trim text
      { value := .str value
        issues :=
          if (words value).length = 5 ∨ (words value).length = 6 then []
          else [Schema.failed (js "must be a 5- or 6-field cron expression")] }
    | v => ⟨v, [Schema.invalidType (js "string") v]⟩
  isOptional := false

/-- An optional string where a blank value means that it is not set. -/
def optionalSecret : Schema := .preprocess emptyToUndefined (.optional (.string [.min 1]))

/-- `[A-Za-z0-9_.:-]` -/
def isPrefixUnit (u : CodeUnit) : Bool :=
  (0x41 ≤ u && u ≤ 0x5A) || (0x61 ≤ u && u ≤ 0x7A) || isDigit u || u == 0x5F || u == 0x2E ||
    u == 0x3A || u == 0x2D

def queuePrefixSchema : Schema :=
  .string [notEmpty, .text (fun value => !value.isEmpty && value.all isPrefixUnit)
    (js "may only contain letters, digits and _ . : -")]

/-- A field whose default is a number. -/
def intWithDefault (min max value : ℕ) : Schema :=
  .withDefault (.num (.ofInt value)) (intFromEnv min max)

def nodeEnvs : List JsString := [js "development", js "test", js "production"]

/-! ## The schema -/

def baseEnvSchema (platform : Platform) : List (JsString × Schema) :=
  [(js "NODE_ENV", .withDefault (.str (js "development")) (.enum nodeEnvs)),
    (js "HOST", .withDefault (.str (js "0.0.0.0")) (.string [notEmpty])),
    (js "PORT", intWithDefault 1 65535 3000),
    (js "REDIS_URL",
      .withDefault (.str (js "redis://localhost:6379")) (redisUrlSchema platform)),
    (js "LOG_LEVEL", .withDefault (.str (js "info"))
      (.oneOf logLevels (js "must be one of: " ++ join (js ", ") logLevels))),
    (js "LOG_PRETTY", boolFromEnv platform none),
    (js "QUEUE_PREFIX", .withDefault (.str (js "qwk")) queuePrefixSchema),
    (js "WORKER_CONCURRENCY", intWithDefault 1 1000 10),
    (js "JOB_ATTEMPTS", intWithDefault 1 50 5),
    (js "JOB_BACKOFF_DELAY_MS", intWithDefault 0 3600000 2000),
    (js "JOB_REMOVE_ON_COMPLETE_COUNT", intWithDefault 0 1000000 1000),
    (js "JOB_REMOVE_ON_FAIL_COUNT", intWithDefault 0 1000000 5000),
    (js "WORKER_RATE_LIMIT_MAX", intWithDefault 1 1000000 100),
    (js "WORKER_RATE_LIMIT_DURATION_MS", intWithDefault 1 3600000 1000),
    (js "JOB_TIMEOUT_MS", intWithDefault 100 3600000 30000),
    (js "SHUTDOWN_TIMEOUT_MS", intWithDefault 1000 300000 30000),
    (js "DEAD_LETTER_MAX_ENTRIES", intWithDefault 1 1000000 5000),
    (js "ENABLE_JOB_SCHEDULERS", boolFromEnv platform (some true)),
    (js "ENABLE_QUEUE_EVENTS", boolFromEnv platform (some true)),
    (js "ENABLE_WORKER_METRICS_SERVER", boolFromEnv platform (some true)),
    (js "WORKER_METRICS_HOST", .withDefault (.str (js "0.0.0.0")) (.string [notEmpty])),
    (js "WORKER_METRICS_PORT", intWithDefault 1 65535 9090),
    (js "MAINTENANCE_CLEANUP_CRON", .withDefault (.str (js "0 * * * *")) cronSchema),
    (js "ENABLE_BULL_BOARD", boolFromEnv platform (some false)),
    (js "BULL_BOARD_USERNAME", optionalSecret),
    (js "BULL_BOARD_PASSWORD", optionalSecret)]

/-- Rejected outright, so a copied example cannot become production authentication. -/
def insecurePasswords : List JsString :=
  [js "change-me", js "changeme", js "password", js "admin", js "secret"]

def minProductionPasswordLength : ℕ := 16

/-- The issues of a password in production. -/
def passwordIssues (platform : Platform) (password : JsString) : List Issue :=
  if platform.toLowerCase password ∈ insecurePasswords then
    [(Schema.failed (js "must not be a well-known example password when NODE_ENV=production")).under
      (js "BULL_BOARD_PASSWORD")]
  else if password.length < minProductionPasswordLength then
    [(Schema.failed (js "must be at least " ++ decimal minProductionPasswordLength ++
      js " characters when NODE_ENV=production")).under (js "BULL_BOARD_PASSWORD")]
  else []

/-- The issue of a credential that is missing. -/
def required (name : JsString) : Issue :=
  (Schema.failed (js "is required when ENABLE_BULL_BOARD is true")).under name

/-- The rule across the fields: a dashboard that is enabled has credentials, and in production a
password that is not an example and not short. -/
def dashboardIssues (platform : Platform) (env : Data) : List Issue :=
  match env.get (js "ENABLE_BULL_BOARD") with
  | .bool true =>
    (if (env.get (js "BULL_BOARD_USERNAME")).isUndefined then [required (js "BULL_BOARD_USERNAME")]
      else []) ++
    match env.get (js "BULL_BOARD_PASSWORD") with
    | .str password =>
      if (env.get (js "NODE_ENV")).string? = some (js "production") then
        passwordIssues platform password
      else []
    | _ => [required (js "BULL_BOARD_PASSWORD")]
  | _ => []

/-- The rule is looked at also where a check of a field has failed, but not where a field is no
boolean or none of its options. -/
def envSchema (platform : Platform) : Schema :=
  (Schema.object (baseEnvSchema platform)).superRefine (dashboardIssues platform)

/-! ## Loading -/

/-- Thrown on invalid configuration. -/
structure ConfigError where
  issues : List JsString

def ConfigError.message (error : ConfigError) : JsString :=
  js "Invalid environment configuration:\n  - " ++ join (js "\n  - ") error.issues

/-- The variables of an environment. -/
abbrev Source := List (JsString × Option JsString)

/-- The value of a variable. -/
def ofVariable : Option JsString → Data
  | none => .undefined
  | some text => .str text

/-- An environment as a value. -/
def Source.toData (source : Source) : Data := .obj (source.map fun p => (p.1, ofVariable p.2))

/-- The text of a variable. -/
def Source.variable (source : Source) (name : JsString) : Option JsString :=
  ((source.find? fun p => p.1 == name).map Prod.snd).join

/-- Only the name of the variable and the message escape. -/
def issueText (issue : Issue) : JsString :=
  (if issue.path = [] then js "(root)" else join (js ".") issue.path) ++ js " " ++ issue.message

def loadEnv (platform : Platform) (source : Source) : Except ConfigError Data :=
  match envSchema platform source.toData with
  | .error issues => .error ⟨issues.map issueText⟩
  | .ok env => .ok env

theorem get_toData (source : Source) (name : JsString) :
    source.toData.get name = ofVariable (source.variable name) := by
  simp only [Source.toData, Source.variable, Data.get, List.find?_map, Option.map_map]
  rw [show ((fun f : JsString × Data => f.1 == name) ∘ fun p => (p.1, ofVariable p.2)) =
    fun p : JsString × Option JsString => p.1 == name from rfl]
  cases source.find? fun p => p.1 == name <;> rfl

end QueueWorkerKit
