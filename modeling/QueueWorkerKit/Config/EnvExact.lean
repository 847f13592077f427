import QueueWorkerKit.Config.Env

/-!
# What is read from the environment

A second description of the configuration, by what each variable may say: the texts it is read from,
whether a blank one is taken for absent, and what it is read as where it is absent.

## Main definitions

* `Kind`, `Variable`, `envVariables`: the variables, and how each is read
* `Variable.Reads`: what a variable is read as
* `DashboardRule`: what an enabled dashboard needs

## Main results

* `implements_baseEnvSchema`: each field of the schema reads its variable
* `loadEnv_ok_iff`: **the configuration is what its variables are read as**
-/

namespace QueueWorkerKit

open Ecma

/-- Whitespace and nothing else. -/
def Blank (text : JsString) : Prop := ∀ u ∈ text, isSpace u = true

/-- How the text of a variable is read. -/
inductive Kind
  | integer (min max : ℕ)
  | boolean
  | secret
  | cron
  | string (rule : JsString → Prop)

/-- A blank text is taken for an absent one. -/
def Kind.BlankIsAbsent : Kind → Prop
  | boolean | secret => True
  | _ => False

/-- What a text is read as. -/
def Kind.Reads (platform : Platform) : Kind → JsString → Data → Prop
  | integer min max, text, d => ∃ n : ℤ, Denotes text n ∧ min ≤ n ∧ n ≤ max ∧ d = .num (.ofInt n)
  | boolean, text, d => platform.toLowerCase text ∈ truthy ∧ d = .bool true ∨
      platform.toLowerCase text ∈ falsy ∧ d = .bool false
  | secret, text, d => d = .str text
  | cron, text, d => ((words (trim text)).length = 5 ∨ (words (trim text)).length = 6) ∧
      d = .str (trim text)
  | string rule, text, d => rule text ∧ d = .str text

/-- A variable: its name, how its text is read, and what it is where it is absent. -/
structure Variable where
  name : JsString
  kind : Kind
  absent : Data

/-- The variable is not there, or blank where that is taken for absent. -/
def Variable.Absent (v : Variable) (value : Option JsString) : Prop :=
  value = none ∨ v.kind.BlankIsAbsent ∧ ∃ text, value = some text ∧ Blank text

/-- What a variable is read as. -/
def Variable.Reads (platform : Platform) (v : Variable) (value : Option JsString) (d : Data) :
    Prop :=
  v.Absent value ∧ d = v.absent ∨
    ¬ v.Absent value ∧ ∃ text, value = some text ∧ v.kind.Reads platform text d

/-- An integer variable. -/
def integerVariable (name : JsString) (min max absent : ℕ) : Variable :=
  ⟨name, .integer min max, .num (.ofInt absent)⟩

/-- The variables of the configuration. -/
def envVariables (platform : Platform) : List Variable :=
  [⟨js "NODE_ENV", .string (· ∈ nodeEnvs), .str (js "development")⟩,
    ⟨js "HOST", .string (· ≠ []), .str (js "0.0.0.0")⟩,
    integerVariable (js "PORT") 1 65535 3000,
    ⟨js "REDIS_URL", .string fun text => ∃ url, platform.url text = some url ∧ text ≠ [] ∧
      (url.protocol = js "redis:" ∨ url.protocol = js "rediss:") ∧ url.hostname ≠ [],
      .str (js "redis://localhost:6379")⟩,
    ⟨js "LOG_LEVEL", .string (· ∈ logLevels), .str (js "info")⟩,
    ⟨js "LOG_PRETTY", .boolean, .undefined⟩,
    ⟨js "QUEUE_PREFIX", .string fun text => text ≠ [] ∧ ∀ u ∈ text, isPrefixUnit u = true,
      .str (js "qwk")⟩,
    integerVariable (js "WORKER_CONCURRENCY") 1 1000 10,
    integerVariable (js "JOB_ATTEMPTS") 1 50 5,
    integerVariable (js "JOB_BACKOFF_DELAY_MS") 0 3600000 2000,
    integerVariable (js "JOB_REMOVE_ON_COMPLETE_COUNT") 0 1000000 1000,
    integerVariable (js "JOB_REMOVE_ON_FAIL_COUNT") 0 1000000 5000,
    integerVariable (js "WORKER_RATE_LIMIT_MAX") 1 1000000 100,
    integerVariable (js "WORKER_RATE_LIMIT_DURATION_MS") 1 3600000 1000,
    integerVariable (js "JOB_TIMEOUT_MS") 100 3600000 30000,
    integerVariable (js "SHUTDOWN_TIMEOUT_MS") 1000 300000 30000,
    integerVariable (js "DEAD_LETTER_MAX_ENTRIES") 1 1000000 5000,
    ⟨js "ENABLE_JOB_SCHEDULERS", .boolean, .bool true⟩,
    ⟨js "ENABLE_QUEUE_EVENTS", .boolean, .bool true⟩,
    ⟨js "ENABLE_WORKER_METRICS_SERVER", .boolean, .bool true⟩,
    ⟨js "WORKER_METRICS_HOST", .string (· ≠ []), .str (js "0.0.0.0")⟩,
    integerVariable (js "WORKER_METRICS_PORT") 1 65535 9090,
    ⟨js "MAINTENANCE_CLEANUP_CRON", .cron, .str (js "0 * * * *")⟩,
    ⟨js "ENABLE_BULL_BOARD", .boolean, .bool false⟩,
    ⟨js "BULL_BOARD_USERNAME", .secret, .undefined⟩,
    ⟨js "BULL_BOARD_PASSWORD", .secret, .undefined⟩]

/-! ## The fields -/

variable {platform : Platform}

/-- A schema reads a variable. -/
def Implements (platform : Platform) (S : Schema) (v : Variable) : Prop :=
  ∀ value d, S (ofVariable value) = .ok d ↔ v.Reads platform value d

/-- A variable whose blank text is a text like any other. -/
theorem implements_withDefault {name : JsString} {kind : Kind} {absent : Data} {S : Schema}
    (hblank : ¬ kind.BlankIsAbsent)
    (hS : ∀ text d, S (.str text) = .ok d ↔ kind.Reads platform text d) :
    Implements platform (.withDefault absent S) ⟨name, kind, absent⟩ := by
  intro value d
  cases value with
  | none =>
    simp [ofVariable, Variable.Reads, Variable.Absent, eq_comm]
  | some text =>
    simp [ofVariable, Variable.Reads, Variable.Absent, hblank, hS]

/-- A variable whose blank text is taken for absent, with what it is read as then. -/
theorem implements_preprocess {name : JsString} {kind : Kind} {absent : Data} {S : Schema}
    (hblank : kind.BlankIsAbsent) (habsent : S .undefined = .ok absent)
    (hS : ∀ text d, ¬ Blank text → (S (.str text) = .ok d ↔ kind.Reads platform text d)) :
    Implements platform (.preprocess emptyToUndefined S) ⟨name, kind, absent⟩ := by
  intro value d
  cases value with
  | none =>
    simp [ofVariable, emptyToUndefined, Variable.Reads, Variable.Absent, habsent,
      eq_comm]
  | some text =>
    by_cases htext : Blank text
    · have htrim : trim text = [] := trim_eq_nil.mpr htext
      simp [ofVariable, emptyToUndefined, Variable.Reads, Variable.Absent,
        hblank, habsent, htrim, htext, eq_comm]
    · have htrim : trim text ≠ [] := mt trim_eq_nil.mp htext
      simp [ofVariable, emptyToUndefined, Variable.Reads, Variable.Absent,
        hblank, htrim, htext, hS]

theorem isDigits_iff {digits : JsString} :
    isDigits digits = true ↔ digits ≠ [] ∧ ∀ u ∈ digits, isDigit u = true := by
  simp [isDigits]

/-- The sign and the digits of a text: it starts with a minus sign, or with a digit. -/
theorem integerPattern_eq_some {value digits : JsString} {negative : Bool} :
    integerPattern value = some (negative, digits) ↔ isDigits digits = true ∧
      (negative = true ∧ value = 0x2D :: digits ∨ negative = false ∧ value = digits) := by
  have hminus : ∀ rest, isDigits (0x2D :: rest) ≠ true := fun rest h => by
    have := (isDigits_iff.mp h).2 0x2D (List.mem_cons_self ..)
    cases this
  unfold integerPattern
  split
  · next rest =>
    constructor
    · intro h
      split_ifs at h with hrest
      obtain ⟨rfl, rfl⟩ := Prod.mk.inj (Option.some.inj h)
      exact ⟨hrest, Or.inl ⟨rfl, rfl⟩⟩
    · rintro ⟨hdigits, ⟨rfl, hvalue⟩ | ⟨rfl, rfl⟩⟩
      · obtain rfl := (List.cons.inj hvalue).2
        rw [if_pos hdigits]
      · exact absurd hdigits (hminus rest)
  · next hnot =>
    constructor
    · intro h
      split_ifs at h with hvalue
      obtain ⟨rfl, rfl⟩ := Prod.mk.inj (Option.some.inj h)
      exact ⟨hvalue, Or.inr ⟨rfl, rfl⟩⟩
    · rintro ⟨hdigits, ⟨rfl, hvalue⟩ | ⟨rfl, rfl⟩⟩
      · exact absurd hvalue (hnot digits)
      · rw [if_pos hdigits]

/-- A text denotes the integer of its sign and its digits. -/
theorem denotes_iff {text : JsString} {n : ℤ} : Denotes text n ↔
    ∃ negative digits, integerPattern text = some (negative, digits) ∧
      n = if negative then -(natOfDigits digits : ℤ) else natOfDigits digits := by
  simp only [integerPattern_eq_some, isDigits_iff]
  constructor
  · rintro ⟨digits, hne, hdigits, ⟨rfl, rfl⟩ | ⟨rfl, rfl⟩⟩
    · exact ⟨false, text, ⟨⟨hne, hdigits⟩, Or.inr ⟨rfl, rfl⟩⟩, rfl⟩
    · exact ⟨true, digits, ⟨⟨hne, hdigits⟩, Or.inl ⟨rfl, rfl⟩⟩, rfl⟩
  · rintro ⟨negative, digits, ⟨⟨hne, hdigits⟩, ⟨rfl, rfl⟩ | ⟨rfl, rfl⟩⟩, rfl⟩
    · exact ⟨digits, hne, hdigits, Or.inr ⟨rfl, rfl⟩⟩
    · exact ⟨text, hne, hdigits, Or.inl ⟨rfl, rfl⟩⟩

/-- A number passes the checks of an integer field when it is the integer of its digits, and in the
range. -/
theorem checks_ofDigits {min max : ℕ} (hmax : max ≤ Double.maxSafe) {negative : Bool}
    {digits : JsString} {n : ℤ}
    (hn : n = if negative then -(natOfDigits digits : ℤ) else natOfDigits digits) :
    ((Double.ofDigits negative digits).isSafeInteger = true ∧
      (Double.ofDigits negative digits).atLeast min = true ∧
      (Double.ofDigits negative digits).atMost max = true) ↔ min ≤ n ∧ n ≤ max := by
  have hvalue := @Double.ofDigits_of_isSafeInteger negative digits
  rw [← hn] at hvalue
  constructor
  · rintro ⟨hsafe, hlo, hhi⟩
    rw [hvalue hsafe] at hlo hhi
    exact ⟨by simpa [Double.atLeast] using hlo, by simpa [Double.atMost] using hhi⟩
  · rintro ⟨hlo, hhi⟩
    have hle : natOfDigits digits ≤ Double.maxSafe := by
      cases negative <;> simp only [if_true, Bool.false_eq_true, if_false] at hn <;> omega
    have hsafe := (@Double.isSafeInteger_ofDigits negative digits).mpr hle
    refine ⟨hsafe, ?_, ?_⟩
    · rw [hvalue hsafe]
      simpa [Double.atLeast] using hlo
    · rw [hvalue hsafe]
      simpa [Double.atMost] using hhi

theorem intFromEnv_of_pattern {min max : ℕ} {text digits : JsString} {negative : Bool} {d : Data}
    (hpattern : integerPattern text = some (negative, digits)) :
    intFromEnv min max (.str text) = .ok d ↔
      ((Double.ofDigits negative digits).isSafeInteger = true ∧
        (Double.ofDigits negative digits).atLeast min = true ∧
        (Double.ofDigits negative digits).atMost max = true) ∧
      .num (Double.ofDigits negative digits).toNumber = d := by
  simp only [Schema.parse_ok, intFromEnv, hpattern]
  generalize Double.ofDigits negative digits = number
  cases hsafe : number.isSafeInteger <;> cases hlo : number.atLeast min <;>
    cases hhi : number.atMost max <;> simp

/-- **An integer field reads the integer that its text denotes**, and no other text. -/
theorem intFromEnv_ok {min max : ℕ} (hmax : max ≤ Double.maxSafe) {text : JsString} {d : Data} :
    intFromEnv min max (.str text) = .ok d ↔
      (Kind.integer min max).Reads platform text d := by
  simp only [Kind.Reads, denotes_iff]
  cases hpattern : integerPattern text with
  | none => simp [Schema.parse_ok, intFromEnv, hpattern]
  | some p =>
    obtain ⟨negative, digits⟩ := p
    rw [intFromEnv_of_pattern hpattern]
    constructor
    · rintro ⟨hchecks, rfl⟩
      have hrange := (checks_ofDigits hmax rfl).mp hchecks
      refine ⟨_, ⟨negative, digits, rfl, rfl⟩, hrange.1, hrange.2, ?_⟩
      rw [Double.ofDigits_of_isSafeInteger hchecks.1]
      rfl
    · rintro ⟨n, ⟨negative', digits', heq, hn⟩, hlo, hhi, rfl⟩
      obtain ⟨rfl, rfl⟩ := Prod.mk.inj (Option.some.inj heq)
      have hchecks := (checks_ofDigits hmax hn).mpr ⟨hlo, hhi⟩
      refine ⟨hchecks, ?_⟩
      rw [Double.ofDigits_of_isSafeInteger hchecks.1, ← hn]
      rfl

theorem stringbool_ok {message text : JsString} {d : Data} :
    stringbool platform message (.str text) = .ok d ↔ Kind.boolean.Reads platform text d := by
  have hdisjoint : ∀ t ∈ truthy, t ∉ falsy := by decide
  simp only [Schema.parse_ok, stringbool, Kind.Reads]
  split_ifs with htrue hfalse
  · have hnot := hdisjoint _ htrue
    simp [htrue, hnot, eq_comm]
  · simp [htrue, hfalse, eq_comm]
  · simp [htrue, hfalse]

theorem cronSchema_ok {text : JsString} {d : Data} :
    cronSchema (.str text) = .ok d ↔ Kind.cron.Reads platform text d := by
  simp only [Schema.parse_ok, cronSchema, Kind.Reads]
  split_ifs with hwords
  · simp [hwords, eq_comm]
  · simp [hwords]

theorem string_reads {checks : List Schema.Check} {rule : JsString → Prop}
    (hrule : ∀ text, checks.all (·.holds text) = true ↔ rule text) {text : JsString} {d : Data} :
    Schema.string checks (.str text) = .ok d ↔ (Kind.string rule).Reads platform text d := by
  rw [Schema.string_ok, hrule]
  rfl

theorem oneOf_reads {options : List JsString} {message text : JsString} {d : Data} :
    Schema.oneOf options message (.str text) = .ok d ↔
      (Kind.string (· ∈ options)).Reads platform text d := Schema.oneOf_ok

theorem notEmpty_holds {text : JsString} : notEmpty.holds text = true ↔ text ≠ [] := by
  simp [notEmpty, Schema.Check.min, Nat.one_le_iff_ne_zero]

/-- A string that is not empty, and passes one more check. -/
theorem notEmpty_all {check : Schema.Check} {text : JsString} :
    [notEmpty, check].all (·.holds text) = true ↔ text ≠ [] ∧ check.holds text = true := by
  simp only [List.all_cons, List.all_nil, Bool.and_true, Bool.and_eq_true, notEmpty_holds]

theorem isRedisUrl_iff {text : JsString} : isRedisUrl platform text = true ↔
    ∃ url, platform.url text = some url ∧
      (url.protocol = js "redis:" ∨ url.protocol = js "rediss:") ∧ url.hostname ≠ [] := by
  unfold isRedisUrl
  cases platform.url text with
  | none => simp
  | some url => simp [List.length_pos_iff]

theorem implements_int {name : JsString} {min max absent : ℕ} (hmax : max ≤ Double.maxSafe) :
    Implements platform (intWithDefault min max absent) (integerVariable name min max absent) :=
  implements_withDefault id fun _ _ => intFromEnv_ok hmax

theorem implements_bool {name : JsString} {b : Bool} :
    Implements platform (boolFromEnv platform (some b)) ⟨name, .boolean, .bool b⟩ :=
  implements_preprocess trivial rfl fun _ _ _ => stringbool_ok

theorem implements_optionalBool {name : JsString} :
    Implements platform (boolFromEnv platform none) ⟨name, .boolean, .undefined⟩ :=
  implements_preprocess trivial rfl fun _ _ _ => stringbool_ok

theorem implements_secret {name : JsString} :
    Implements platform optionalSecret ⟨name, .secret, .undefined⟩ := by
  apply implements_preprocess
  · trivial
  · rfl
  · intro text d hblank
    have hne : text ≠ [] := by
      rintro rfl
      exact hblank fun u hu => absurd hu List.not_mem_nil
    have hlength : 1 ≤ text.length := List.length_pos_iff.mpr hne
    simp [Schema.string_ok, Schema.Check.min, hlength, Kind.Reads]

theorem implements_host {name : JsString} {absent : Data} :
    Implements platform (.withDefault absent (.string [notEmpty]))
      ⟨name, .string (· ≠ []), absent⟩ :=
  implements_withDefault id fun _ _ => string_reads fun text => by simp [notEmpty_holds]

theorem implements_redisUrl {name : JsString} {absent : Data} :
    Implements platform (.withDefault absent (redisUrlSchema platform))
      ⟨name, .string fun text => ∃ url, platform.url text = some url ∧ text ≠ [] ∧
        (url.protocol = js "redis:" ∨ url.protocol = js "rediss:") ∧ url.hostname ≠ [],
        absent⟩ := by
  apply implements_withDefault id
  intro text d
  apply string_reads
  intro text
  rw [notEmpty_all]
  constructor
  · rintro ⟨hne, hurl⟩
    obtain ⟨url, hurl, hprotocol⟩ := isRedisUrl_iff.mp hurl
    exact ⟨url, hurl, hne, hprotocol⟩
  · rintro ⟨url, hurl, hne, hprotocol⟩
    exact ⟨hne, isRedisUrl_iff.mpr ⟨url, hurl, hprotocol⟩⟩

theorem implements_queuePrefix {name : JsString} {absent : Data} :
    Implements platform (.withDefault absent queuePrefixSchema)
      ⟨name, .string fun text => text ≠ [] ∧ ∀ u ∈ text, isPrefixUnit u = true, absent⟩ := by
  apply implements_withDefault id
  intro text d
  apply string_reads
  intro text
  rw [notEmpty_all]
  simp

/-- **Each field of the schema reads its variable.** -/
theorem implements_baseEnvSchema : List.Forall₂
    (fun f v => f.1 = v.name ∧ Implements platform f.2 v) (baseEnvSchema platform)
    (envVariables platform) :=
  .cons ⟨rfl, implements_withDefault id fun _ _ => oneOf_reads⟩ <|
  .cons ⟨rfl, implements_host⟩ <|
  .cons ⟨rfl, implements_int (by decide)⟩ <|
  .cons ⟨rfl, implements_redisUrl⟩ <|
  .cons ⟨rfl, implements_withDefault id fun _ _ => oneOf_reads⟩ <|
  .cons ⟨rfl, implements_optionalBool⟩ <|
  .cons ⟨rfl, implements_queuePrefix⟩ <|
  .cons ⟨rfl, implements_int (by decide)⟩ <|
  .cons ⟨rfl, implements_int (by decide)⟩ <|
  .cons ⟨rfl, implements_int (by decide)⟩ <|
  .cons ⟨rfl, implements_int (by decide)⟩ <|
  .cons ⟨rfl, implements_int (by decide)⟩ <|
  .cons ⟨rfl, implements_int (by decide)⟩ <|
  .cons ⟨rfl, implements_int (by decide)⟩ <|
  .cons ⟨rfl, implements_int (by decide)⟩ <|
  .cons ⟨rfl, implements_int (by decide)⟩ <|
  .cons ⟨rfl, implements_int (by decide)⟩ <|
  .cons ⟨rfl, implements_bool⟩ <|
  .cons ⟨rfl, implements_bool⟩ <|
  .cons ⟨rfl, implements_bool⟩ <|
  .cons ⟨rfl, implements_host⟩ <|
  .cons ⟨rfl, implements_int (by decide)⟩ <|
  .cons ⟨rfl, implements_withDefault id fun _ _ => cronSchema_ok⟩ <|
  .cons ⟨rfl, implements_bool⟩ <|
  .cons ⟨rfl, implements_secret⟩ <|
  .cons ⟨rfl, implements_secret⟩ <|
  .nil

/-! ## The configuration -/

variable {source : Source} {values : JsString → Data} {env : Data}

theorem exists_of_forall₂ {α β : Type} {R : α → β → Prop} {as : List α} {bs : List β}
    (h : List.Forall₂ R as bs) : ∀ b ∈ bs, ∃ a ∈ as, R a b := by
  induction h with
  | nil => exact fun b hb => absurd hb List.not_mem_nil
  | @cons a b as bs hab _ ih =>
    intro b' hb'
    rcases List.mem_cons.mp hb' with rfl | hb'
    · exact ⟨a, List.mem_cons_self .., hab⟩
    · obtain ⟨a', ha', hR⟩ := ih b' hb'
      exact ⟨a', List.mem_cons_of_mem _ ha', hR⟩

theorem exists_schema {v : Variable} (hv : v ∈ envVariables platform) :
    ∃ S, (v.name, S) ∈ baseEnvSchema platform ∧ Implements platform S v := by
  obtain ⟨⟨name, S⟩, hmem, rfl, hS⟩ := exists_of_forall₂ implements_baseEnvSchema v hv
  exact ⟨S, hmem, hS⟩

theorem exists_variable {name : JsString} {S : Schema} (h : (name, S) ∈ baseEnvSchema platform) :
    ∃ v ∈ envVariables platform, v.name = name ∧ Implements platform S v := by
  obtain ⟨v, hv, hname, hS⟩ := exists_of_forall₂ implements_baseEnvSchema.flip (name, S) h
  exact ⟨v, hv, hname.symm, hS⟩

theorem nodup_baseEnvSchema : ((baseEnvSchema platform).map Prod.fst).Nodup := by
  simp only [baseEnvSchema, List.map_cons, List.map_nil]
  decide

/-- Every variable may be absent. -/
theorem isOptional_baseEnvSchema : ∀ f ∈ baseEnvSchema platform, f.2.isOptional = true :=
  List.all_eq_true.mp (rfl : (baseEnvSchema platform).all (fun f => f.2.isOptional) = true)

/-- A variable is read as one value. -/
theorem reads_unique {v : Variable} {value : Option JsString} {d d' : Data}
    (hv : v ∈ envVariables platform) (h : v.Reads platform value d)
    (h' : v.Reads platform value d') : d = d' := by
  obtain ⟨S, -, hS⟩ := exists_schema hv
  exact Except.ok.inj (((hS value d).mpr h).symm.trans ((hS value d').mpr h'))

/-- The fields of an accepted environment are what the variables are read as. -/
theorem reads_of_object (h : Schema.object (baseEnvSchema platform) source.toData = .ok env) :
    ∀ v ∈ envVariables platform, v.Reads platform (source.variable v.name) (env.get v.name) := by
  intro v hv
  obtain ⟨S, hmem, hS⟩ := exists_schema hv
  obtain ⟨ds, hparse, rfl⟩ := Schema.object_ok.mp h
  have hget := Schema.get_of_parseFields nodup_baseEnvSchema hparse _ hmem
  rw [← hS, ← get_toData]
  exact hget

/-- An environment whose variables can all be read is accepted, field by field. -/
theorem exists_object
    (h : ∀ v ∈ envVariables platform, ∃ d, v.Reads platform (source.variable v.name) d) :
    ∃ env, Schema.object (baseEnvSchema platform) source.toData = .ok env := by
  have hfields : ∀ f ∈ baseEnvSchema platform, ∃ d, f.2 (source.toData.get f.1) = .ok d := by
    intro f hf
    obtain ⟨v, hv, hname, hS⟩ := exists_variable hf
    obtain ⟨d, hd⟩ := h v hv
    refine ⟨d, ?_⟩
    rw [get_toData, ← hname]
    exact (hS _ _).mpr hd
  obtain ⟨ds, hds⟩ := Schema.exists_parseFields hfields fun f hf =>
    Or.inr (isOptional_baseEnvSchema f hf)
  exact ⟨.obj ds, Schema.object_ok.mpr ⟨ds, hds, rfl⟩⟩

/-- What an enabled dashboard needs: credentials that are there and not blank, and in production a
password that is not, in any case of its letters, a listed example, and not short. -/
def DashboardRule (platform : Platform) (values : JsString → Data) : Prop :=
  values (js "ENABLE_BULL_BOARD") = .bool true →
    (∃ username, values (js "BULL_BOARD_USERNAME") = .str username ∧ ¬ Blank username) ∧
    ∃ password, values (js "BULL_BOARD_PASSWORD") = .str password ∧ ¬ Blank password ∧
      (values (js "NODE_ENV") = .str (js "production") →
        platform.toLowerCase password ∉ insecurePasswords ∧ 16 ≤ password.length)

/-- A secret is not set, or not blank. -/
theorem secret_reads {name : JsString} {value : Option JsString} {d : Data}
    (h : Variable.Reads platform ⟨name, .secret, .undefined⟩ value d) :
    d = .undefined ∨ ∃ text, d = .str text ∧ ¬ Blank text := by
  rcases h with ⟨-, rfl⟩ | ⟨hnot, text, rfl, rfl⟩
  · exact Or.inl rfl
  · exact Or.inr ⟨text, rfl, fun hblank => hnot (Or.inr ⟨trivial, text, rfl, hblank⟩)⟩

theorem passwordIssues_eq_nil {password : JsString} : passwordIssues platform password = [] ↔
    platform.toLowerCase password ∉ insecurePasswords ∧ 16 ≤ password.length := by
  unfold passwordIssues minProductionPasswordLength
  split_ifs with hinsecure hshort
  · simp [hinsecure]
  · simpa [hinsecure] using hshort
  · simpa [hinsecure] using hshort

theorem string?_eq_some {d : Data} {text : JsString} : d.string? = some text ↔ d = .str text := by
  cases d <;> simp [Data.string?]

/-- The rule across the fields. -/
theorem dashboardIssues_eq_nil
    (husername : env.get (js "BULL_BOARD_USERNAME") = .undefined ∨
      ∃ text, env.get (js "BULL_BOARD_USERNAME") = .str text ∧ ¬ Blank text)
    (hpassword : env.get (js "BULL_BOARD_PASSWORD") = .undefined ∨
      ∃ text, env.get (js "BULL_BOARD_PASSWORD") = .str text ∧ ¬ Blank text) :
    dashboardIssues platform env = [] ↔ DashboardRule platform env.get := by
  unfold dashboardIssues DashboardRule
  generalize env.get (js "ENABLE_BULL_BOARD") = enabled
  generalize env.get (js "BULL_BOARD_USERNAME") = username at husername ⊢
  generalize env.get (js "BULL_BOARD_PASSWORD") = password at hpassword ⊢
  generalize env.get (js "NODE_ENV") = nodeEnv
  by_cases henabled : enabled = .bool true
  · subst henabled
    rcases hpassword with rfl | ⟨password, rfl, hblank⟩
    · simp
    · rcases husername with rfl | ⟨username, rfl, hblank'⟩
      · simp [Data.isUndefined]
      · by_cases hproduction : nodeEnv = .str (js "production")
        · simp [Data.isUndefined, string?_eq_some, hproduction, hblank, hblank',
            passwordIssues_eq_nil]
        · simp [Data.isUndefined, string?_eq_some, hproduction, hblank, hblank']
  · refine iff_of_true ?_ fun h => absurd h henabled
    split
    · exact absurd rfl henabled
    · rfl

theorem envSchema_ok : envSchema platform source.toData = .ok env ↔
    Schema.object (baseEnvSchema platform) source.toData = .ok env ∧
      dashboardIssues platform env = [] := Schema.superRefine_ok

theorem loadEnv_ok : loadEnv platform source = .ok env ↔
    envSchema platform source.toData = .ok env := by
  unfold loadEnv
  cases envSchema platform source.toData <;> simp

theorem dashboardRule_congr {values' : JsString → Data}
    (h : ∀ v ∈ envVariables platform, values v.name = values' v.name) :
    DashboardRule platform values ↔ DashboardRule platform values' := by
  have hnodeEnv : values (js "NODE_ENV") = values' (js "NODE_ENV") :=
    h _ (List.mem_of_getElem? (i := 0) rfl)
  have henabled : values (js "ENABLE_BULL_BOARD") = values' (js "ENABLE_BULL_BOARD") :=
    h _ (List.mem_of_getElem? (i := 23) rfl)
  have husername : values (js "BULL_BOARD_USERNAME") = values' (js "BULL_BOARD_USERNAME") :=
    h _ (List.mem_of_getElem? (i := 24) rfl)
  have hpassword : values (js "BULL_BOARD_PASSWORD") = values' (js "BULL_BOARD_PASSWORD") :=
    h _ (List.mem_of_getElem? (i := 25) rfl)
  unfold DashboardRule
  rw [hnodeEnv, henabled, husername, hpassword]

/-- The environment is accepted when its fields are, and the dashboard has what it needs. -/
theorem loadEnv_ok_iff : loadEnv platform source = .ok env ↔
    Schema.object (baseEnvSchema platform) source.toData = .ok env ∧
      DashboardRule platform env.get := by
  rw [loadEnv_ok, envSchema_ok]
  refine and_congr_right fun hobject => ?_
  have husername := reads_of_object hobject ⟨js "BULL_BOARD_USERNAME", .secret, .undefined⟩
    (List.mem_of_getElem? (i := 24) rfl)
  have hpassword := reads_of_object hobject ⟨js "BULL_BOARD_PASSWORD", .secret, .undefined⟩
    (List.mem_of_getElem? (i := 25) rfl)
  exact dashboardIssues_eq_nil (secret_reads husername) (secret_reads hpassword)

/-- **What is loaded is what the variables are read as**, and an enabled dashboard has what it
needs. -/
theorem reads_of_loadEnv (h : loadEnv platform source = .ok env) :
    (∀ v ∈ envVariables platform, v.Reads platform (source.variable v.name) (env.get v.name)) ∧
      DashboardRule platform env.get := by
  obtain ⟨hobject, hrule⟩ := loadEnv_ok_iff.mp h
  exact ⟨reads_of_object hobject, hrule⟩

/-- **Variables that can all be read are loaded**, where an enabled dashboard has what it needs. -/
theorem exists_loadEnv
    (hreads : ∀ v ∈ envVariables platform,
      v.Reads platform (source.variable v.name) (values v.name))
    (hrule : DashboardRule platform values) : ∃ env, loadEnv platform source = .ok env ∧
      ∀ v ∈ envVariables platform, env.get v.name = values v.name := by
  obtain ⟨env, hobject⟩ := exists_object fun v hv => ⟨_, hreads v hv⟩
  have hvalues : ∀ v ∈ envVariables platform, env.get v.name = values v.name :=
    fun v hv => reads_unique hv (reads_of_object hobject v hv) (hreads v hv)
  exact ⟨env, loadEnv_ok_iff.mpr ⟨hobject, (dashboardRule_congr hvalues).mpr hrule⟩, hvalues⟩

/-- A blank text denotes no integer. -/
theorem not_denotes_of_blank {text : JsString} {n : ℤ} (hblank : Blank text) :
    ¬ Denotes text n := by
  rintro ⟨digits, hne, hdigits, hsplit⟩
  obtain ⟨u, hu⟩ := List.exists_mem_of_ne_nil digits hne
  have hmem : u ∈ text := by
    rcases hsplit with ⟨rfl, -⟩ | ⟨rfl, -⟩
    · exact hu
    · exact List.mem_cons_of_mem _ hu
  have := hblank u hmem
  rw [isSpace_of_isDigit (hdigits u hu)] at this
  cases this

end QueueWorkerKit
