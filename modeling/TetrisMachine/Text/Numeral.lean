/-!
# Numerals

Reading unsigned numerals in a radix below a bound, and writing hexadecimal
numbers and padded columns.

* `Numeral.read`: the value of a numeral, or why a text is none.
* `lowerHex`, `upperHex`: hexadecimal numbers.
-/

namespace TetrisMachine.Text

/-- Why a text is not a numeral. -/
inductive NumeralError where
  /-- There is no character at all. -/
  | empty
  /-- A character is not a digit of the radix, or a sign stands alone. -/
  | invalidDigit
  /-- The value is not below the bound. -/
  | tooLarge
deriving DecidableEq, Repr

def NumeralError.message : NumeralError → String
  | .empty => "cannot parse integer from empty string"
  | .invalidDigit => "invalid digit found in string"
  | .tooLarge => "number too large to fit in target type"

/-- The value of a digit up to `f`, in either case. -/
def digitValue? (c : Char) : Option Nat :=
  if '0' ≤ c ∧ c ≤ '9' then some (c.toNat - '0'.toNat)
  else if 'a' ≤ c ∧ c ≤ 'f' then some (c.toNat - 'a'.toNat + 10)
  else if 'A' ≤ c ∧ c ≤ 'F' then some (c.toNat - 'A'.toNat + 10)
  else none

namespace Numeral

/-- The value of a digit that is one in the radix. -/
def digit? (radix : Nat) (c : Char) : Option Nat :=
  (digitValue? c).filter (· < radix)

/-- Appends one digit to a value. The digit is judged before the bound. -/
def pushDigit (radix bound : Nat) (value : Nat) (c : Char) : Except NumeralError Nat :=
  match digit? radix c with
  | none => .error .invalidDigit
  | some d => if value * radix + d < bound then .ok (value * radix + d) else .error .tooLarge

/-- The value of a row of digits, read from the left. -/
def readDigits (radix bound : Nat) (cs : List Char) : Except NumeralError Nat :=
  cs.foldlM (pushDigit radix bound) 0

/-- Reads an unsigned numeral below `bound`: digits of the radix, after at most
one plus sign. -/
def read (radix bound : Nat) : List Char → Except NumeralError Nat
  | [] => .error .empty
  | ['+'] => .error .invalidDigit
  | '+' :: cs => readDigits radix bound cs
  | cs => readDigits radix bound cs

end Numeral

/-- The hexadecimal digits of a number in lower case, at least `width` of them. -/
def lowerHex (width n : Nat) : String :=
  String.ofList ((Nat.toDigits 16 n).leftpad width '0')

/-- The hexadecimal digits of a number in upper case, at least `width` of them. -/
def upperHex (width n : Nat) : String :=
  String.ofList (((Nat.toDigits 16 n).map Char.toUpper).leftpad width '0')

/-- A text moved to the right end of a column. -/
def padLeft (width : Nat) (s : String) : String :=
  String.ofList (s.toList.leftpad width ' ')

/-- A text at the left end of a column. -/
def padRight (width : Nat) (s : String) : String :=
  String.ofList (s.toList.rightpad width ' ')

end TetrisMachine.Text
