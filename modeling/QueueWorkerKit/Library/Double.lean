import QueueWorkerKit.Library.Json
import Mathlib.Tactic.Common
import Mathlib.Algebra.Order.Ring.Nat

/-!
# Numbers from digits

The number that a text of decimal digits converts to is the nearest double, the even one where two
are equally near, and infinite from `2 ^ 1024` on. An integral double is exact below `2 ^ 53`, and
nothing from there on is rounded below it, so a number that is safe is the one that the digits
denote. The two zeros are one.

## Main definitions

* `nearest`: the double nearest to a natural number
* `Double`, `Double.ofDigits`: the integral doubles, and the one that digits convert to
* `Denotes`: the integer that a text denotes

## Main results

* `nearest_of_lt`, `le_nearest`: what is exact stays exact, and nothing else becomes so
* `Double.ofDigits_of_isSafeInteger`: **a safe number is the one that the digits denote**
-/

namespace Ecma

/-- The nearest multiple of `unit`, the even one of two. -/
def roundTo (unit n : ℕ) : ℕ :=
  if 2 * (n % unit) < unit ∨ 2 * (n % unit) = unit ∧ (n / unit) % 2 = 0 then unit * (n / unit)
  else unit * (n / unit + 1)

/-- The double nearest to a natural number: its first 53 bits, rounded. -/
def nearest (n : ℕ) : ℕ := roundTo (2 ^ (n.log2 - 52)) n

/-- An integer as a number, with its decimal text. -/
def JsNumber.ofInt (n : ℤ) : JsNumber :=
  .finite n (if n < 0 then 0x2D :: decimal n.natAbs else decimal n.natAbs)

/-- An integral double. -/
inductive Double
  | finite (value : ℤ)
  | infinity (negative : Bool)
  deriving DecidableEq

/-- The largest integer whose neighbours are told apart. -/
def Double.maxSafe : ℕ := 2 ^ 53 - 1

namespace Double

/-- The finite doubles are below. -/
def overflow : ℕ := 2 ^ 1024

/-- The double of a sign and a magnitude. -/
def signed (negative : Bool) (magnitude : ℕ) : Double :=
  if overflow ≤ magnitude then .infinity negative
  else .finite (if negative then -magnitude else magnitude)

/-- The number of the language. -/
def toNumber : Double → JsNumber
  | .finite value => .ofInt value
  | .infinity negative => .infinity negative

/-- What a sign and digits convert to. -/
def ofDigits (negative : Bool) (digits : JsString) : Double :=
  signed negative (nearest (natOfDigits digits))

/-- `Number.isSafeInteger` -/
def isSafeInteger : Double → Bool
  | .finite value => value.natAbs ≤ maxSafe
  | .infinity _ => false

/-- At least `n`. -/
def atLeast (n : ℤ) : Double → Bool
  | .finite value => n ≤ value
  | .infinity negative => !negative

/-- At most `n`. -/
def atMost (n : ℤ) : Double → Bool
  | .finite value => value ≤ n
  | .infinity negative => negative

end Double

/-! ## Rounding -/

theorem roundTo_one (n : ℕ) : roundTo 1 n = n := by
  simp [roundTo, Nat.mod_one]

/-- Rounding stays above every multiple of the unit that is below. -/
theorem mul_le_roundTo {unit n k : ℕ} (h : unit * k ≤ n) (hunit : 0 < unit) :
    unit * k ≤ roundTo unit n := by
  have hk : k ≤ n / unit := (Nat.le_div_iff_mul_le hunit).mpr (by rwa [Nat.mul_comm])
  unfold roundTo
  split_ifs
  · exact Nat.mul_le_mul_left unit hk
  · exact Nat.mul_le_mul_left unit (Nat.le_succ_of_le hk)

theorem nearest_of_lt {n : ℕ} (h : n < 2 ^ 53) : nearest n = n := by
  have hlog : n.log2 - 52 = 0 := by
    rcases Nat.eq_zero_or_pos n with rfl | hpos
    · decide
    · have : n.log2 < 53 := (Nat.log2_lt hpos.ne').mpr h
      omega
  rw [nearest, hlog, Nat.pow_zero, roundTo_one]

/-- Nothing from `2 ^ 53` on is rounded below it. -/
theorem le_nearest {n : ℕ} (h : 2 ^ 53 ≤ n) : 2 ^ 53 ≤ nearest n := by
  have hpos : n ≠ 0 := by
    rintro rfl
    exact absurd h (by decide)
  have hlog : 53 ≤ n.log2 := (Nat.le_log2 hpos).mpr h
  -- the first bit of `n` is a multiple of the unit
  have hself : 2 ^ (n.log2 - 52) * 2 ^ 52 ≤ n := by
    rw [← Nat.pow_add, Nat.sub_add_cancel (by omega)]
    exact Nat.log2_self_le hpos
  calc 2 ^ 53 ≤ 2 ^ n.log2 := Nat.pow_le_pow_right (by decide) hlog
    _ = 2 ^ (n.log2 - 52) * 2 ^ 52 := by rw [← Nat.pow_add, Nat.sub_add_cancel (by omega)]
    _ ≤ nearest n := mul_le_roundTo hself (Nat.two_pow_pos _)

-- of two doubles that are equally near, the even one
example : nearest (2 ^ 53 + 1) = 2 ^ 53 ∧ nearest (2 ^ 53 + 3) = 2 ^ 53 + 4 := by decide

/-! ## The integer that a text denotes -/

/-- A text denotes an integer: digits, after a minus sign where it is negative, and nothing else. -/
def Denotes (text : JsString) (n : ℤ) : Prop :=
  ∃ digits : JsString, digits ≠ [] ∧ (∀ u ∈ digits, isDigit u = true) ∧
    (text = digits ∧ n = natOfDigits digits ∨ text = 0x2D :: digits ∧ n = -natOfDigits digits)

namespace Double

variable {negative : Bool} {digits : JsString}

theorem signed_of_le {n : ℕ} (h : n ≤ maxSafe) :
    signed negative n = .finite (if negative then -n else n) := by
  have hlt : n < overflow := by
    have hpow : ∀ k, 53 ≤ k → 2 ^ 53 ≤ 2 ^ k := fun k hk => Nat.pow_le_pow_right (by decide) hk
    have hmax : 2 ^ 53 ≤ overflow := hpow 1024 (by decide)
    unfold maxSafe at h
    omega
  rw [signed, if_neg (Nat.not_le_of_lt hlt)]

theorem isSafeInteger_signed {n : ℕ} : (signed negative n).isSafeInteger = true ↔ n ≤ maxSafe := by
  constructor
  · intro hsafe
    unfold signed at hsafe
    split_ifs at hsafe
    · cases hsafe
    · simpa [isSafeInteger] using hsafe
    · simpa [isSafeInteger] using hsafe
  · intro h
    rw [signed_of_le h]
    cases negative <;> simpa [isSafeInteger] using h

/-- Rounding makes no number safe. -/
theorem nearest_le_maxSafe {n : ℕ} : nearest n ≤ maxSafe ↔ n ≤ maxSafe := by
  have hmax : ∀ m, m ≤ maxSafe ↔ m < 2 ^ 53 := fun m => by
    unfold maxSafe
    omega
  rw [hmax, hmax]
  constructor
  · intro h
    by_contra hle
    exact absurd h (Nat.not_lt_of_le (le_nearest (Nat.le_of_not_lt hle)))
  · intro h
    rwa [nearest_of_lt h]

theorem isSafeInteger_ofDigits :
    (ofDigits negative digits).isSafeInteger = true ↔ natOfDigits digits ≤ maxSafe :=
  isSafeInteger_signed.trans nearest_le_maxSafe

/-- **A safe number is the one that the digits denote**, for any number of digits. -/
theorem ofDigits_of_isSafeInteger (h : (ofDigits negative digits).isSafeInteger = true) :
    ofDigits negative digits =
      .finite (if negative then -natOfDigits digits else natOfDigits digits) := by
  have hle : natOfDigits digits ≤ maxSafe := isSafeInteger_ofDigits.mp h
  have hlt : natOfDigits digits < 2 ^ 53 := by
    unfold maxSafe at hle
    omega
  rw [ofDigits, nearest_of_lt hlt, signed_of_le hle]

end Double

end Ecma
