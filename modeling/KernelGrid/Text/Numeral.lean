import KernelGrid.Word

/-!
# Numerals

Reading words from digits of a base, and writing numbers in base sixteen.  A numeral may start
with one plus sign; there is no other sign and no separator.
-/

namespace KernelGrid.Text

/-- The digits of a number in base sixteen, in lower case. -/
def hexadecimal (n : Nat) : String :=
  String.ofList (Nat.toDigits 16 n)

/-- At least eight digits in base sixteen. -/
def paddedHexadecimal (n : Nat) : String :=
  let digits := Nat.toDigits 16 n
  String.ofList (List.replicate (8 - digits.length) '0' ++ digits)

/-- The value of a digit; letters of either case count from ten. -/
def digitValue? (base : Nat) (c : Char) : Option Nat :=
  let value :=
    if '0' ≤ c ∧ c ≤ '9' then c.toNat - '0'.toNat
    else if 'a' ≤ c ∧ c ≤ 'z' then c.toNat - 'a'.toNat + 10
    else if 'A' ≤ c ∧ c ≤ 'Z' then c.toNat - 'A'.toNat + 10
    else base
  if value < base then some value else none

inductive NumeralError where
  | empty
  | invalidDigit
  | overflow
deriving DecidableEq, Repr

def NumeralError.message : NumeralError → String
  | .empty => "cannot parse integer from empty string"
  | .invalidDigit => "invalid digit found in string"
  | .overflow => "number too large to fit in target type"

/-- Appends one digit to a value.  A character that is no digit is noticed before an overflow. -/
def appendDigit (base value : Nat) (c : Char) : Except NumeralError Nat :=
  match digitValue? base c with
  | none => .error .invalidDigit
  | some digit =>
    if base * value + digit < UInt32.size then .ok (base * value + digit) else .error .overflow

/-- Digits without a sign. -/
def parseDigits (base : Nat) (digits : List Char) : Except NumeralError Word :=
  (digits.foldlM (appendDigit base) 0).map UInt32.ofNat

/-- An optional plus sign and at least one digit. -/
def parseNumeral (base : Nat) : List Char → Except NumeralError Word
  | [] => .error .empty
  | ['+'] => .error .invalidDigit
  | '+' :: digits => parseDigits base digits
  | digits => parseDigits base digits

end KernelGrid.Text
