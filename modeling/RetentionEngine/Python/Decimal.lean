import RetentionEngine.Python.Text
import Mathlib.Algebra.Order.Ring.Int

/-!
# Decimals

`decimal.Decimal` as far as a text becomes an integer: the numeric strings
the constructor takes, `to_integral_value` under the default context, and
`int`. Integers grow as far as the memory goes; how far that is, in digits,
is a parameter.
-/

namespace RetentionEngine

namespace Python

/-- A decimal; a finite one is its signed coefficient times a power of ten. -/
inductive Decimal
  | finite (negative : Bool) (coefficient : ℕ) (exponent : ℤ)
  | infinity (negative : Bool)
  | nan (signaling : Bool)
  deriving DecidableEq, Repr

/-- What these calls raise. -/
inductive NumberError
  | invalidOperation
  | valueError
  | overflowError
  | memoryError
  deriving DecidableEq, Repr

namespace Decimal

/-- The exponents of the largest context: `MAX_EMAX`, and the least one of
a subnormal. -/
def maxEmax : ℤ := 999999999999999999

def minEtiny : ℤ := -1999999999999999997

/-- One character of a numeric string, in ASCII. -/
def asciiOf (u : Unicode) (c : CodePoint) : Option Char :=
  if 0 < c.val ∧ c.val ≤ 127 then some (Char.ofNat c.val)
  else if isSpace c then some ' '
  else (u.decimalDigit c).map fun d => Char.ofNat (48 + d.val)

/-- `s.strip()` without its underscores, in ASCII. -/
def numericAsAscii (u : Unicode) (s : Text) : Option (List Char) :=
  let stripped := ((s.dropWhile isSpace).reverse.dropWhile isSpace).reverse
  (stripped.filter (· ≠ point '_')).mapM (asciiOf u)

/-- The number a list of digits shows. -/
def ofDigits (digits : List Char) : Option ℕ :=
  digits.foldlM (fun n c => if c.isDigit then some (10 * n + (c.toNat - 48)) else none) 0

/-- A sign, and what follows it. -/
def sign : List Char → Bool × List Char
  | '-' :: s => (true, s)
  | '+' :: s => (false, s)
  | s => (false, s)

/-- What follows the mantissa: nothing, or an exponent. -/
def exponentOf : List Char → Option ℤ
  | [] => some 0
  | _ :: s =>
      match sign s with
      | (_, []) => none
      | (negative, digits) => (ofDigits digits).map fun n => if negative then -(n : ℤ) else n

/-- A number in the range of the largest context. -/
def inRange (negative : Bool) (coefficient : ℕ) (exponent : ℤ) : Option Decimal :=
  if minEtiny ≤ exponent ∧ exponent + (Nat.toDigits 10 coefficient).length - 1 ≤ maxEmax then
    some (finite negative coefficient exponent)
  else none

/-- Digits with at most one point and an exponent. -/
def ofNumber (negative : Bool) (s : List Char) : Option Decimal := do
  let mantissa := s.takeWhile (· ≠ 'e')
  let whole := mantissa.takeWhile (· ≠ '.')
  let fraction := (mantissa.dropWhile (· ≠ '.')).drop 1
  if whole = [] ∧ fraction = [] then none
  else
    let coefficient ← ofDigits (whole ++ fraction)
    let exponent ← exponentOf (s.dropWhile (· ≠ 'e'))
    inRange negative coefficient (exponent - fraction.length)

/-- `Decimal(s)`; `none` is `InvalidOperation`. -/
def ofText (u : Unicode) (s : Text) : Option Decimal := do
  let ascii ← numericAsAscii u s
  let (negative, unsigned) := sign (ascii.map Char.toLower)
  if unsigned = "inf".toList ∨ unsigned = "infinity".toList then return infinity negative
  else if unsigned.take 3 = "nan".toList then (ofDigits (unsigned.drop 3)).map fun _ => nan false
  else if unsigned.take 4 = "snan".toList then (ofDigits (unsigned.drop 4)).map fun _ => nan true
  else ofNumber negative unsigned

/-- The quotient rounded to the nearest integer, and to the even one of two. -/
def halfEven (n d : ℕ) : ℕ :=
  if 2 * (n % d) < d then n / d
  else if d < 2 * (n % d) then n / d + 1
  else if n / d % 2 = 0 then n / d else n / d + 1

/-- `d.to_integral_value()`. -/
def toIntegralValue : Decimal → Except NumberError Decimal
  | finite negative coefficient exponent =>
      if 0 ≤ exponent then .ok (finite negative coefficient exponent)
      else .ok (finite negative (halfEven coefficient (10 ^ (-exponent).toNat)) 0)
  | infinity negative => .ok (infinity negative)
  | nan false => .ok (nan false)
  | nan true => .error .invalidOperation

/-- `int(d)`. -/
def toInt (maxDigits : ℕ) : Decimal → Except NumberError ℤ
  | finite negative coefficient exponent =>
      let magnitude :=
        if 0 ≤ exponent then coefficient * 10 ^ exponent.toNat
        else coefficient / 10 ^ (-exponent).toNat
      if 10 ^ maxDigits ≤ magnitude then .error .memoryError
      else .ok (if negative then -(magnitude : ℤ) else magnitude)
  | infinity _ => .error .overflowError
  | nan _ => .error .valueError

/-- `int(Decimal(s).to_integral_value())`. -/
def intOfText (u : Unicode) (maxDigits : ℕ) (s : Text) : Except NumberError ℤ :=
  match ofText u s with
  | none => .error .invalidOperation
  | some d => d.toIntegralValue.bind (toInt maxDigits)

/-- The integer a finite decimal is rounded to, its sign apart. -/
def rounded (coefficient : ℕ) (exponent : ℤ) : ℕ :=
  if 0 ≤ exponent then coefficient * 10 ^ exponent.toNat
  else halfEven coefficient (10 ^ (-exponent).toNat)

/-- **An unbounded decimal**: an infinity, or one that is rounded to more
digits than there is memory for. -/
def Unbounded (maxDigits : ℕ) : Decimal → Prop
  | finite _ coefficient exponent => 10 ^ maxDigits ≤ rounded coefficient exponent
  | infinity _ => True
  | nan _ => False

instance (maxDigits : ℕ) : DecidablePred (Unbounded maxDigits) := fun d => match d with
  | finite _ coefficient exponent =>
      inferInstanceAs (Decidable (10 ^ maxDigits ≤ rounded coefficient exponent))
  | infinity _ => inferInstanceAs (Decidable True)
  | nan _ => inferInstanceAs (Decidable False)

/-- Neither an infinity nor a NaN. -/
def IsFinite : Decimal → Prop
  | finite _ _ _ => True
  | _ => False

/-! ## How a decimal becomes an integer -/

variable {u : Unicode} {maxDigits : ℕ} {s : Text} {d : Decimal}

/-- **Rounding a finite decimal** succeeds as far as the memory goes. -/
theorem toInt_finite (negative : Bool) (coefficient : ℕ) (exponent : ℤ) :
    (toIntegralValue (finite negative coefficient exponent)).bind (toInt maxDigits) =
      if 10 ^ maxDigits ≤ rounded coefficient exponent then .error .memoryError
      else .ok (if negative then -(rounded coefficient exponent : ℤ)
        else rounded coefficient exponent) := by
  unfold toIntegralValue rounded
  by_cases hexponent : 0 ≤ exponent
  · simp only [if_pos hexponent, Except.bind, toInt]
  · simp only [if_neg hexponent, Except.bind, toInt, le_refl, if_true, Int.toNat_zero, pow_zero,
      mul_one]

/-- **The two errors that are neither an invalid operation nor a value
error** are those of the unbounded decimals. -/
theorem intOfText_unbounded : intOfText u maxDigits s = .error .overflowError ∨
    intOfText u maxDigits s = .error .memoryError ↔
      ∃ d, ofText u s = some d ∧ d.Unbounded maxDigits := by
  unfold intOfText
  cases ofText u s with
  | none => simp
  | some d =>
      simp only [Option.some.injEq, exists_eq_left']
      cases d with
      | finite negative coefficient exponent =>
          rw [toInt_finite]
          unfold Unbounded
          split <;> simp [*]
      | infinity negative => simp [toIntegralValue, toInt, Unbounded, Except.bind]
      | nan signaling =>
          cases signaling <;> simp [toIntegralValue, toInt, Unbounded, Except.bind]

/-- A text is read as an integer when it shows a finite decimal that is not
unbounded. -/
theorem exists_intOfText : (∃ n, intOfText u maxDigits s = .ok n) ↔
    ∃ d, ofText u s = some d ∧ d.IsFinite ∧ ¬ d.Unbounded maxDigits := by
  unfold intOfText
  cases ofText u s with
  | none => simp
  | some d =>
      simp only [Option.some.injEq, exists_eq_left']
      cases d with
      | finite negative coefficient exponent =>
          rw [toInt_finite]
          unfold Unbounded IsFinite
          split <;> simp [*]
      | infinity negative => simp [toIntegralValue, toInt, IsFinite, Except.bind]
      | nan signaling => cases signaling <;> simp [toIntegralValue, toInt, IsFinite, Except.bind]

end Decimal

end Python

end RetentionEngine
