import QueueWorkerKit.Library.Text
import Mathlib.Data.Rat.Init

/-!
# JSON values and their encoding

A JSON value is a tree. It is encoded as the UTF-8 bytes of its text, without blanks, with the
escapes of well-formed serialization: quotation marks, backslashes, control characters and lone
surrogates are escaped. A value of the language is a tree as well, with the values JSON has no
text for; serializing and parsing it drops these from objects and replaces them in arrays.

## Main definitions

* `Json`, `Json.encode`, `Json.byteLength`: JSON values, their bytes, and how many these are
* `Data`, `Data.toJson`, `Data.ofJson`: values of the language, and their JSON
* `Data.roundTrip`: a value after serialization and parsing

## Main results

* `fieldsLength_cons_cons`, `byteLength_str`: the number of bytes of an object and of a string
-/

namespace Ecma

/-- A JSON value. A number carries the text it is written with. -/
inductive Json
  | null
  | bool (b : Bool)
  | num (value : ℚ) (text : JsString)
  | str (s : JsString)
  | arr (items : List Json)
  | obj (fields : List (JsString × Json))

/-! ## Encoding of text -/

/-- The first code unit of a surrogate pair. -/
def isHighSurrogate (u : CodeUnit) : Bool := 0xD800 ≤ u && u ≤ 0xDBFF

/-- The second code unit of a surrogate pair. -/
def isLowSurrogate (u : CodeUnit) : Bool := 0xDC00 ≤ u && u ≤ 0xDFFF

/-- A lower-case hexadecimal digit. -/
def hexDigit (n : ℕ) : UInt8 := (if n < 10 then 0x30 + n else 0x57 + n).toUInt8

/-- The escape of a code unit by its number. -/
def escapeUnit (u : CodeUnit) : List UInt8 :=
  [0x5C, 0x75, hexDigit (u.toNat / 4096), hexDigit (u.toNat / 256 % 16),
    hexDigit (u.toNat / 16 % 16), hexDigit (u.toNat % 16)]

/-- The short escape of a code unit, if it has one. -/
def shortEscape (u : CodeUnit) : Option UInt8 :=
  if u = 0x22 then some 0x22
  else if u = 0x5C then some 0x5C
  else if u = 0x08 then some 0x62
  else if u = 0x0C then some 0x66
  else if u = 0x0A then some 0x6E
  else if u = 0x0D then some 0x72
  else if u = 0x09 then some 0x74
  else none

/-- The bytes of a code unit that is not part of a surrogate pair. -/
def encodeUnit (u : CodeUnit) : List UInt8 :=
  match shortEscape u with
  | some c => [0x5C, c]
  | none =>
    if u < 0x20 || isHighSurrogate u || isLowSurrogate u then escapeUnit u
    else if u < 0x80 then [u.toUInt8]
    else if u < 0x800 then [(0xC0 + u.toNat / 64).toUInt8, (0x80 + u.toNat % 64).toUInt8]
    else
      [(0xE0 + u.toNat / 4096).toUInt8, (0x80 + u.toNat / 64 % 64).toUInt8,
        (0x80 + u.toNat % 64).toUInt8]

/-- The four bytes of a surrogate pair. -/
def encodePair (high low : CodeUnit) : List UInt8 :=
  let c := 0x10000 + (high.toNat - 0xD800) * 0x400 + (low.toNat - 0xDC00)
  [(0xF0 + c / 262144).toUInt8, (0x80 + c / 4096 % 64).toUInt8, (0x80 + c / 64 % 64).toUInt8,
    (0x80 + c % 64).toUInt8]

/-- The bytes of a string between its quotation marks. -/
def encodeUnits : JsString → List UInt8
  | [] => []
  | [u] => encodeUnit u
  | u :: v :: rest =>
    if isHighSurrogate u && isLowSurrogate v then encodePair u v ++ encodeUnits rest
    else encodeUnit u ++ encodeUnits (v :: rest)

/-- The bytes of a string. -/
def quote (s : JsString) : List UInt8 := 0x22 :: encodeUnits s ++ [0x22]

/-- The escaped code units of a code unit that is not part of a surrogate pair. -/
def escapeText (u : CodeUnit) : JsString :=
  match shortEscape u with
  | some c => [0x5C, c.toUInt16]
  | none =>
    if u < 0x20 || isHighSurrogate u || isLowSurrogate u then (escapeUnit u).map UInt8.toUInt16
    else [u]

/-- The text of a string between its quotation marks. -/
def escapeTexts : JsString → JsString
  | [] => []
  | [u] => escapeText u
  | u :: v :: rest =>
    if isHighSurrogate u && isLowSurrogate v then u :: v :: escapeTexts rest
    else escapeText u ++ escapeTexts (v :: rest)

/-- The JSON text of a string. -/
def quoteText (s : JsString) : JsString := 0x22 :: escapeTexts s ++ [0x22]

/-! ## Encoding of values -/

/-- Encoded parts separated by commas. -/
def commaSeparated : List (List UInt8) → List UInt8
  | [] => []
  | [part] => part
  | part :: next :: rest => part ++ 0x2C :: commaSeparated (next :: rest)

namespace Json

mutual

/-- The bytes of a value. -/
def encode : Json → List UInt8
  | null => [0x6E, 0x75, 0x6C, 0x6C]
  | bool true => [0x74, 0x72, 0x75, 0x65]
  | bool false => [0x66, 0x61, 0x6C, 0x73, 0x65]
  | num _ text => text.map UInt16.toUInt8
  | str s => quote s
  | arr items => 0x5B :: commaSeparated (encodeItems items) ++ [0x5D]
  | obj fields => 0x7B :: commaSeparated (encodeFields fields) ++ [0x7D]

/-- The bytes of each item of an array. -/
def encodeItems : List Json → List (List UInt8)
  | [] => []
  | item :: rest => encode item :: encodeItems rest

/-- The bytes of each field of an object. -/
def encodeFields : List (JsString × Json) → List (List UInt8)
  | [] => []
  | (key, value) :: rest => (quote key ++ 0x3A :: encode value) :: encodeFields rest

end

/-- The number of bytes of a value. -/
def byteLength (j : Json) : ℕ := j.encode.length

/-- The number of bytes of the fields of an object, with the comma before each but the first. -/
def fieldsLength (fields : List (JsString × Json)) : ℕ :=
  (commaSeparated (encodeFields fields)).length

theorem byteLength_str (s : JsString) : (str s).byteLength = (encodeUnits s).length + 2 := by
  simp [byteLength, encode, quote]

theorem byteLength_num (value : ℚ) (text : JsString) : (num value text).byteLength = text.length := by
  simp [byteLength, encode]

theorem byteLength_obj (fields : List (JsString × Json)) :
    (obj fields).byteLength = fieldsLength fields + 2 := by
  simp [byteLength, encode, fieldsLength]

theorem fieldsLength_singleton (key : JsString) (value : Json) :
    fieldsLength [(key, value)] = (encodeUnits key).length + 3 + value.byteLength := by
  simp [fieldsLength, encodeFields, commaSeparated, quote, byteLength]
  omega

/-- A field takes its quoted key, a colon, its value and the comma that separates it from the
fields after it. -/
theorem fieldsLength_cons_cons (key : JsString) (value : Json) (next : JsString × Json)
    (rest : List (JsString × Json)) :
    fieldsLength ((key, value) :: next :: rest) =
      (encodeUnits key).length + 4 + value.byteLength + fieldsLength (next :: rest) := by
  simp [fieldsLength, encodeFields, commaSeparated, quote, byteLength]
  omega

end Json

theorem length_encodeUnit_pos (u : CodeUnit) : 1 ≤ (encodeUnit u).length := by
  unfold encodeUnit
  split
  · simp
  · split_ifs <;> simp [escapeUnit]

/-- A code unit takes a byte at least. -/
theorem length_le_length_encodeUnits (s : JsString) : s.length ≤ (encodeUnits s).length := by
  -- Induction along the encoding, which takes a surrogate pair at a time.
  induction s using encodeUnits.induct with
  | case1 => simp
  | case2 u => simpa [encodeUnits] using length_encodeUnit_pos u
  | case3 u v rest hpair ih =>
    simp only [encodeUnits, hpair, if_true, List.length_append, List.length_cons, encodePair]
    simp only [List.length_nil]
    omega
  | case4 u v rest hpair ih =>
    have hu := length_encodeUnit_pos u
    rw [encodeUnits, if_neg hpair, List.length_append, List.length_cons]
    omega

/-- A code unit that starts no surrogate pair is encoded by itself. -/
theorem encodeUnits_cons {u : CodeUnit} (h : isHighSurrogate u = false) (s : JsString) :
    encodeUnits (u :: s) = encodeUnit u ++ encodeUnits s := by
  cases s with
  | nil => rw [encodeUnits, encodeUnits, List.append_nil]
  | cons v rest => rw [encodeUnits, h, Bool.false_and, if_neg Bool.false_ne_true]

/-- Repetitions of such a code unit take their bytes each. -/
theorem length_encodeUnits_replicate_append {u : CodeUnit} (h : isHighSurrogate u = false) (n : ℕ)
    (s : JsString) : (encodeUnits (List.replicate n u ++ s)).length =
      n * (encodeUnit u).length + (encodeUnits s).length := by
  induction n with
  | zero => simp
  | succ n ih =>
    rw [List.replicate_succ, List.cons_append, encodeUnits_cons h, List.length_append, ih,
      Nat.succ_mul]
    omega

/-! ## Values of the language -/

/-- A number: not a number, infinite, or finite with its text. -/
inductive JsNumber
  | nan
  | infinity (negative : Bool)
  | finite (value : ℚ) (text : JsString)

/-- The text of a number. -/
def JsNumber.toText : JsNumber → JsString
  | .nan => js "NaN"
  | .infinity true => js "-Infinity"
  | .infinity false => js "Infinity"
  | .finite _ text => text

/-- Comparison of numbers, false when one is not a number. -/
def JsNumber.lt : JsNumber → JsNumber → Bool
  | .nan, _ => false
  | _, .nan => false
  | .infinity true, .infinity true => false
  | .infinity true, _ => true
  | _, .infinity true => false
  | .infinity false, _ => false
  | _, .infinity false => true
  | .finite a _, .finite b _ => a < b

/-- The other comparison of numbers, which is false as well when one is not a number. -/
def JsNumber.le : JsNumber → JsNumber → Bool
  | .nan, _ => false
  | _, .nan => false
  | a, b => !b.lt a

/-- The JSON text of a number. -/
def JsNumber.jsonText : JsNumber → JsString
  | .finite _ text => text
  | _ => js "null"

/-- A natural number as a number. -/
def JsNumber.ofNat (n : ℕ) : JsNumber := .finite n (decimal n)

theorem JsNumber.ofNat_inj {m n : ℕ} : JsNumber.ofNat m = .ofNat n ↔ m = n := by
  constructor
  · intro h
    exact Int.ofNat_inj.mp (congrArg Rat.num (JsNumber.finite.inj h).1)
  · rintro rfl
    rfl

/-- A value of the language as a tree. `other` stands for the values that have no JSON text and
no parts a schema reads, by what `typeof` says of them. -/
inductive Data
  | undefined
  | null
  | bool (b : Bool)
  | num (n : JsNumber)
  | str (s : JsString)
  | other (typeName : JsString)
  | arr (items : List Data)
  | obj (fields : List (JsString × Data))

namespace Data

mutual

/-- The JSON of a value, `none` for a value without JSON text. -/
def toJson : Data → Option Json
  | undefined => none
  | null => some .null
  | bool b => some (.bool b)
  | num (.finite value text) => some (.num value text)
  | num _ => some .null
  | str s => some (.str s)
  | other _ => none
  | arr items => some (.arr (itemsToJson items))
  | obj fields => some (.obj (fieldsToJson fields))

/-- The items of an array, `null` for those without JSON text. -/
def itemsToJson : List Data → List Json
  | [] => []
  | item :: rest => (toJson item).getD .null :: itemsToJson rest

/-- The fields of an object, without those that have no JSON text. -/
def fieldsToJson : List (JsString × Data) → List (JsString × Json)
  | [] => []
  | (key, value) :: rest =>
    match toJson value with
    | some json => (key, json) :: fieldsToJson rest
    | none => fieldsToJson rest

end

mutual

/-- The value a JSON text is parsed to. -/
def ofJson : Json → Data
  | .null => null
  | .bool b => bool b
  | .num value text => num (.finite value text)
  | .str s => str s
  | .arr items => arr (ofItems items)
  | .obj fields => obj (ofFields fields)

/-- The items of a parsed array. -/
def ofItems : List Json → List Data
  | [] => []
  | item :: rest => ofJson item :: ofItems rest

/-- The fields of a parsed object. -/
def ofFields : List (JsString × Json) → List (JsString × Data)
  | [] => []
  | (key, value) :: rest => (key, ofJson value) :: ofFields rest

end

/-- A value after serialization and parsing. -/
def roundTrip (d : Data) : Option Data := d.toJson.map ofJson

/-- The own field of an object, `undefined` when it has none. -/
def get (d : Data) (key : JsString) : Data :=
  match d with
  | obj fields => ((fields.find? fun f => f.1 == key).map Prod.snd).getD undefined
  | _ => undefined

/-- Whether an object has a field of its own under a key. -/
def has (d : Data) (key : JsString) : Bool :=
  match d with
  | obj fields => fields.any fun f => f.1 == key
  | _ => false

/-- The value is `undefined`. -/
def isUndefined : Data → Bool
  | undefined => true
  | _ => false

/-- An object without the fields under some keys. -/
def without (keys : List JsString) : Data → Data
  | obj fields => obj (fields.filter fun f => f.1 ∉ keys)
  | v => v

/-- The text of a string. -/
def string? : Data → Option JsString
  | str s => some s
  | _ => none

/-- The value of a number. -/
def number? : Data → Option JsNumber
  | num n => some n
  | _ => none

/-- An object without a field has `undefined` there. -/
theorem get_of_has_eq_false {d : Data} {key : JsString} (h : d.has key = false) :
    d.get key = .undefined := by
  cases d with
  | obj fields =>
    have hnone : fields.find? (fun f => f.1 == key) = none := by
      rw [List.find?_eq_none]
      exact fun f hf hkey => List.any_eq_false.mp h f hf hkey
    simp [get, hnone]
  | _ => rfl

/-- A parsed value is not `undefined`. -/
theorem isUndefined_ofJson (j : Json) : (ofJson j).isUndefined = false := by
  cases j <;> rfl

/-- No field of a parsed object is. -/
theorem isUndefined_of_mem_ofFields {fields : List (JsString × Json)} :
    ∀ f ∈ ofFields fields, f.2.isUndefined = false := by
  induction fields with
  | nil => exact fun f hf => absurd hf List.not_mem_nil
  | cons g fields ih =>
    obtain ⟨key, value⟩ := g
    intro f hf
    rcases List.mem_cons.mp hf with rfl | hf
    · exact isUndefined_ofJson value
    · exact ih f hf

/-- A parsed object has `undefined` under a key exactly when it has no such field. -/
theorem isUndefined_get_ofJson (j : Json) (key : JsString) :
    ((ofJson j).get key).isUndefined = !(ofJson j).has key := by
  cases j with
  | obj fields =>
    -- Induction on the fields: the first one under the key is the one that is read.
    induction fields with
    | nil => rfl
    | cons f rest ih =>
      obtain ⟨k, value⟩ := f
      by_cases hk : k = key
      · simp [ofJson, ofFields, get, has, hk, isUndefined_ofJson]
      · have hne : (k == key) = false := by simpa using hk
        simpa [ofJson, ofFields, get, has, hne] using ih
  | _ => rfl

/-- A field is looked up in the second part of an object when the first has none under its key. -/
theorem get_append_of_notMem {xs ys : List (JsString × Data)} {key : JsString}
    (h : key ∉ xs.map Prod.fst) : (obj (xs ++ ys)).get key = (obj ys).get key := by
  have hnone : xs.find? (fun f => f.1 == key) = none := by
    apply List.find?_eq_none.mpr
    intro f hf heq
    exact h (List.mem_map.mpr ⟨f, hf, by simpa using heq⟩)
  simp [get, List.find?_append, hnone]

theorem get_cons_self (key : JsString) (d : Data) (ds : List (JsString × Data)) :
    (obj ((key, d) :: ds)).get key = d := by
  simp [get]

theorem get_cons_of_ne {key key' : JsString} (h : key' ≠ key) (d : Data)
    (ds : List (JsString × Data)) : (obj ((key', d) :: ds)).get key = (obj ds).get key := by
  simp [get, h]

theorem get_of_notMem {ds : List (JsString × Data)} {key : JsString} (h : key ∉ ds.map Prod.fst) :
    (obj ds).get key = .undefined := by
  have happend := @get_append_of_notMem ds [] key h
  rwa [List.append_nil] at happend

@[simp] theorem roundTrip_str (s : JsString) : (str s).roundTrip = some (str s) := rfl

/-- An object whose fields survive serialization survives it. -/
theorem roundTrip_obj {fields : List (JsString × Data)}
    (h : ∀ f ∈ fields, f.2.roundTrip = some f.2) : (obj fields).roundTrip = some (obj fields) := by
  suffices hf : ofFields (fieldsToJson fields) = fields by
    simp [roundTrip, toJson, ofJson, hf]
  induction fields with
  | nil => rfl
  | cons f rest ih =>
    obtain ⟨key, value⟩ := f
    obtain ⟨json, hjson, hval⟩ := Option.map_eq_some_iff.mp (h (key, value) (List.mem_cons_self ..))
    have hrest := ih fun f hf => h f (List.mem_cons_of_mem _ hf)
    simp only [fieldsToJson, hjson, ofFields, hval, hrest]

end Data

end Ecma
