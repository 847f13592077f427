import Mathlib.Data.List.Basic
import Mathlib.Data.List.DropRight
import Mathlib.Data.Int.Notation
import Mathlib.Tactic.Common

/-!
# Text as UTF-16 code units

A string is its list of UTF-16 code units, so that lengths, slices and per-character
replacements count what the language counts, lone surrogates included. Natural numbers are
written in decimal, and calendar instants in the simplified ISO 8601 format.

## Main definitions

* `JsString`, `js`: strings, and the string of a literal
* `decimal`: a natural number in decimal
* `TimeValue`, `toISOString`: time values, and their ISO 8601 date and time
* `isSpace`, `trim`, `words`: whitespace, and a text without it at its ends, or anywhere
* `natOfDigits`, `dateParse`: the number of some digits, and the time value of a date and time

## Main results

* `decimal_injective`: distinct numbers have distinct decimals
* `isDigit_of_mem_decimal`: a decimal has digits only
* `append_cons_inj_first`, `append_cons_inj_last`: texts are told apart at a separator
-/

namespace Ecma

/-- A UTF-16 code unit. -/
abbrev CodeUnit := UInt16

/-- A string is its list of code units. -/
abbrev JsString := List CodeUnit

/-- Membership among strings, decided in one way wherever it is asked. -/
instance decidableMem (s : JsString) (options : List JsString) : Decidable (s ∈ options) :=
  List.instDecidableMemOfLawfulBEq s options

/-- The code units of a character: one, or a surrogate pair above the basic plane. -/
def utf16 (c : Char) : JsString :=
  if c.toNat < 0x10000 then [c.toNat.toUInt16]
  else
    [(0xD800 + (c.toNat - 0x10000) / 0x400).toUInt16,
      (0xDC00 + (c.toNat - 0x10000) % 0x400).toUInt16]

/-- The string of a literal. -/
def js (s : String) : JsString := s.toList.flatMap utf16

/-- A code unit that is a decimal digit. -/
def isDigit (u : CodeUnit) : Bool := 0x30 ≤ u && u ≤ 0x39

/-- A natural number in decimal. -/
def decimal (n : ℕ) : JsString := (Nat.toDigits 10 n).map fun c => c.toNat.toUInt16

/-- A natural number in decimal, filled with leading zeros up to a width. -/
def padDecimal (width n : ℕ) : JsString :=
  List.replicate (width - (decimal n).length) 0x30 ++ decimal n

/-- The number that decimal digits denote. -/
def natOfDigits (s : JsString) : ℕ := s.foldl (fun n u => 10 * n + (u.toNat - 0x30)) 0

/-- Whitespace and line terminators. -/
def isSpace (u : CodeUnit) : Bool :=
  (0x09 ≤ u && u ≤ 0x0D) || u == 0x20 || u == 0xA0 || u == 0x1680 || (0x2000 ≤ u && u ≤ 0x200A) ||
    u == 0x2028 || u == 0x2029 || u == 0x202F || u == 0x205F || u == 0x3000 || u == 0xFEFF

/-- `trim` -/
def trim (s : JsString) : JsString := (s.dropWhile isSpace).rdropWhile isSpace

/-- The parts between whitespace that are not empty. -/
def words (s : JsString) : List JsString := (s.splitOnP isSpace).filter (· ≠ [])

/-- The lines of a string. -/
def lines (s : JsString) : List JsString := s.splitOn 0x0A

/-- Strings joined by a separator. -/
def join (separator : JsString) (parts : List JsString) : JsString :=
  separator.intercalate parts

theorem isSpace_of_isDigit {u : CodeUnit} (h : isDigit u = true) : isSpace u = false := by
  simp only [isDigit, isSpace, Bool.and_eq_true, decide_eq_true_eq, UInt16.le_iff_toNat_le,
    Bool.or_eq_false_iff, Bool.and_eq_false_iff, decide_eq_false_iff_not, beq_eq_false_iff_ne,
    ne_eq, ← UInt16.toNat_inj, UInt16.reduceToNat] at h ⊢
  omega

theorem trim_eq_nil {s : JsString} : trim s = [] ↔ ∀ u ∈ s, isSpace u = true := by
  rw [trim, List.rdropWhile_eq_nil_iff]
  constructor
  · intro h
    -- a text that starts with no blank has no blank at its start
    rw [← List.dropWhile_eq_nil_iff]
    by_contra hne
    have hhead := h _ (List.head_mem hne)
    rw [List.head_dropWhile_not isSpace hne] at hhead
    cases hhead
  · intro h u hu
    exact h u (List.dropWhile_sublist isSpace |>.mem hu)

theorem ne_of_notMem {u v : CodeUnit} {s : JsString} (h : u ∉ s) (hv : v ∈ s) : (v == u) = false :=
  beq_false_of_ne fun heq => h (heq ▸ hv)

/-- Text without a line break is one line. -/
theorem lines_of_notMem {s : JsString} (h : (0x0A : CodeUnit) ∉ s) : lines s = [s] :=
  List.splitOnP_eq_singleton fun _ hv => ne_of_notMem h hv

/-- The first line ends at the first line break. -/
theorem lines_append_cons {s : JsString} (h : (0x0A : CodeUnit) ∉ s) (t : JsString) :
    lines (s ++ 0x0A :: t) = s :: lines t :=
  List.splitOnP_append_cons_of_forall_mem (fun _ hv => ne_of_notMem h hv) _ (by decide) t

/-- A line has no line break. -/
theorem notMem_of_mem_lines {s line : JsString} (h : line ∈ lines s) : (0x0A : CodeUnit) ∉ line := by
  unfold lines at h
  -- Induction on the text: a break starts a line, another code unit is put before the first one.
  induction s generalizing line with
  | nil =>
    rw [List.splitOn_nil, List.mem_singleton] at h
    simp [h]
  | cons u s ih =>
    rw [List.splitOn_cons_eq_if_modifyHead] at h
    split_ifs at h with hu
    · rcases List.mem_cons.mp h with rfl | h
      · exact List.not_mem_nil
      · exact ih h
    · obtain ⟨first, rest, hsplit⟩ := List.exists_cons_of_ne_nil (List.splitOn_ne_nil 0x0A s)
      rw [hsplit] at h ih
      rcases List.mem_cons.mp h with rfl | h
      · have hfirst := ih (List.mem_cons_self ..)
        simp only [beq_iff_eq] at hu
        simp [hfirst, Ne.symm hu]
      · exact ih (List.mem_cons_of_mem _ h)

/-- Texts without a line break are the lines of what they are joined to. -/
theorem lines_join {parts : List JsString} (h : ∀ line ∈ parts, (0x0A : CodeUnit) ∉ line)
    (hne : parts ≠ []) : lines (join [0x0A] parts) = parts := List.splitOn_intercalate 0x0A h hne

theorem toNat_digit_lt {n : ℕ} {c : Char} (h : c ∈ Nat.toDigits 10 n) :
    48 ≤ c.toNat ∧ c.toNat ≤ 57 := by
  have hd := Nat.isDigit_of_mem_toDigits (by decide) (by decide) h
  simp only [Char.isDigit, Bool.and_eq_true, decide_eq_true_eq] at hd
  exact hd

theorem isDigit_of_mem_decimal {n : ℕ} {u : CodeUnit} (h : u ∈ decimal n) : isDigit u = true := by
  obtain ⟨c, hc, rfl⟩ := List.mem_map.mp h
  obtain ⟨hlo, hhi⟩ := toNat_digit_lt hc
  simp only [isDigit, Bool.and_eq_true, decide_eq_true_eq, UInt16.le_iff_toNat_le]
  simp only [Nat.toUInt16, UInt16.toNat_ofNat']
  rw [Nat.mod_eq_of_lt (by omega)]
  exact ⟨hlo, hhi⟩

/-- Distinct numbers have distinct decimals. -/
theorem decimal_injective : Function.Injective decimal := by
  have hback : ∀ n, (decimal n).map (fun u => Char.ofNat u.toNat) = Nat.toDigits 10 n := by
    intro n
    rw [decimal, List.map_map]
    refine (List.map_congr_left fun c hc => ?_).trans (List.map_id _)
    obtain ⟨hlo, hhi⟩ := toNat_digit_lt hc
    simp only [Function.comp_apply, Nat.toUInt16, UInt16.toNat_ofNat']
    rw [Nat.mod_eq_of_lt (by omega)]
    exact Char.ofNat_toNat c
  intro m n h
  have hdigits : Nat.toDigits 10 m = Nat.toDigits 10 n := by rw [← hback, ← hback, h]
  rw [← Nat.ofDigitChars_toDigits (b := 10) (n := m) (by decide) (by decide), hdigits,
    Nat.ofDigitChars_toDigits (by decide) (by decide)]

/-! ## Texts with a separator -/

/-- Texts are told apart at the first separator. -/
theorem append_cons_inj_first {u : CodeUnit} {x y s t : JsString} (hx : u ∉ x) (hy : u ∉ y) :
    x ++ u :: s = y ++ u :: t ↔ x = y ∧ s = t := by
  -- Induction on the first text: where one of the two ends before the other, a separator would
  -- have to be one of the code units of the other.
  induction x generalizing y with
  | nil =>
    cases y with
    | nil => simp
    | cons b y =>
      have hne : u ≠ b := fun h => hy (h ▸ List.mem_cons_self ..)
      simp [hne]
  | cons a x ih =>
    have hxa : u ≠ a := fun h => hx (h ▸ List.mem_cons_self ..)
    cases y with
    | nil => simp [hxa.symm]
    | cons b y =>
      have hx' : u ∉ x := fun h => hx (List.mem_cons_of_mem _ h)
      have hy' : u ∉ y := fun h => hy (List.mem_cons_of_mem _ h)
      simp only [List.cons_append, List.cons.injEq, ih hx' hy', and_assoc]

/-- Texts are told apart at the last separator. -/
theorem append_cons_inj_last {u : CodeUnit} {x y s t : JsString} (hs : u ∉ s) (ht : u ∉ t) :
    x ++ u :: s = y ++ u :: t ↔ x = y ∧ s = t := by
  rw [← List.reverse_inj, List.reverse_append, List.reverse_append, List.reverse_cons,
    List.reverse_cons, List.append_assoc, List.append_assoc, List.singleton_append,
    List.singleton_append, append_cons_inj_first (by simpa using hs) (by simpa using ht),
    List.reverse_inj, List.reverse_inj, and_comm]

/-! ## Dates -/

/-- The proleptic Gregorian year, month and day of a day counted from 1970-01-01. -/
def civilFromDays (days : ℤ) : ℤ × ℕ × ℕ :=
  let z := days + 719468
  let era := z / 146097
  let dayOfEra := z % 146097
  let yearOfEra := (dayOfEra - dayOfEra / 1460 + dayOfEra / 36524 - dayOfEra / 146096) / 365
  let dayOfYear := dayOfEra - (365 * yearOfEra + yearOfEra / 4 - yearOfEra / 100)
  let mp := (5 * dayOfYear + 2) / 153
  let day := dayOfYear - (153 * mp + 2) / 5 + 1
  let month := if mp < 10 then mp + 3 else mp - 9
  (yearOfEra + era * 400 + (if month ≤ 2 then 1 else 0), month.toNat, day.toNat)

/-- Four digits for the years 0 to 9999, a sign and six digits for the others. -/
def yearText (year : ℤ) : JsString :=
  if 0 ≤ year ∧ year ≤ 9999 then padDecimal 4 year.toNat
  else (if year < 0 then js "-" else js "+") ++ padDecimal 6 year.natAbs

/-- A time value: milliseconds since the epoch, at most a hundred million days from it. -/
structure TimeValue where
  ms : ℤ
  range : ms.natAbs ≤ 8640000000000000

/-- The epoch. -/
def TimeValue.epoch : TimeValue := ⟨0, by decide⟩

/-- A time value as an ISO 8601 date and time. -/
def toISOString (t : TimeValue) : JsString :=
  let (year, month, day) := civilFromDays (t.ms / 86400000)
  let rest := (t.ms % 86400000).toNat
  yearText year ++ js "-" ++ padDecimal 2 month ++ js "-" ++ padDecimal 2 day ++ js "T" ++
    padDecimal 2 (rest / 3600000) ++ js ":" ++ padDecimal 2 (rest / 60000 % 60) ++ js ":" ++
    padDecimal 2 (rest / 1000 % 60) ++ js "." ++ padDecimal 3 (rest % 1000) ++ js "Z"

example : toISOString ⟨1772539384567, by decide⟩ = js "2026-03-03T12:03:04.567Z" := by decide

/-- The day counted from 1970-01-01 of a proleptic Gregorian year, month and day. -/
def daysFromCivil (year : ℤ) (month day : ℕ) : ℤ :=
  let y := if month ≤ 2 then year - 1 else year
  let yearOfEra := y % 400
  let dayOfYear : ℤ := (153 * ((month : ℤ) + (if month > 2 then -3 else 9)) + 2) / 5 + day - 1
  let dayOfEra := yearOfEra * 365 + yearOfEra / 4 - yearOfEra / 100 + dayOfYear
  y / 400 * 146097 + dayOfEra - 719468

/-- The milliseconds of what follows the minutes: `Z`, or seconds with or without a fraction. -/
def parseSeconds (s : JsString) : Option ℕ :=
  let seconds := natOfDigits ((s.drop 1).take 2)
  let fraction := (s.drop 4).dropLast
  if s = js "Z" then some 0
  else if s.head? ≠ some 0x3A ∨ ¬ ((s.drop 1).take 2).all isDigit ∨ 59 < seconds then none
  else if s.drop 3 = js "Z" then some (seconds * 1000)
  else if (s.drop 3).head? = some 0x2E ∧ s.getLast? = some 0x5A ∧ fraction ≠ [] ∧
      fraction.all isDigit then
    some (seconds * 1000 + natOfDigits ((fraction ++ js "00").take 3))
  else none

/-- The time value of a date and time in UTC, `YYYY-MM-DDTHH:mmZ` with or without seconds and
their fraction; `none` for an invalid date. -/
def dateParse (s : JsString) : Option TimeValue :=
  let digits := s.take 4 ++ (s.drop 5).take 2 ++ (s.drop 8).take 2 ++ (s.drop 11).take 2 ++
    (s.drop 14).take 2
  let month := natOfDigits ((s.drop 5).take 2)
  let day := natOfDigits ((s.drop 8).take 2)
  let hour := natOfDigits ((s.drop 11).take 2)
  let minute := natOfDigits ((s.drop 14).take 2)
  if digits.length = 12 ∧ digits.all isDigit ∧ s[4]? = some 0x2D ∧ s[7]? = some 0x2D ∧
      s[10]? = some 0x54 ∧ s[13]? = some 0x3A ∧ 1 ≤ month ∧ month ≤ 12 ∧ 1 ≤ day ∧ day ≤ 31 ∧
      hour ≤ 23 ∧ minute ≤ 59 then
    (parseSeconds (s.drop 16)).bind fun seconds =>
      let ms := daysFromCivil (natOfDigits (s.take 4)) month day * 86400000 +
        (hour * 3600000 + minute * 60000 + seconds : ℕ)
      if range : ms.natAbs ≤ 8640000000000000 then some ⟨ms, range⟩ else none
  else none

example : (dateParse (js "2026-03-03T12:03:04.567Z")).map TimeValue.ms = some 1772539384567 := by
  decide

end Ecma
