import ScanPlanner.Text.Blank
import ScanPlanner.Text.Digit

/-!
# Integers as texts

How an integer is read: blanks around it do not count, one sign may come first, the digits may be of
any script, and a single underscore may part two digits. A numeral of too many digits is refused as
such before what follows it is looked at.
-/

namespace ScanPlanner

/-- Why a text is not read as an integer. -/
inductive IntegerFault where
  /-- The text is no integer. -/
  | malformed
  /-- The text begins with a numeral of more digits than are read. -/
  | tooLong (digits : Nat)
deriving DecidableEq, Repr

/-- The greatest number of digits that is read. -/
def maxIntegerDigits : Nat := 4300

namespace Integer

/-- The digits of a numeral, most significant first. A digit comes first, and each underscore has a
digit on both sides. -/
def digitValues? : List Char → Option (List Nat)
  | [] => none
  | [c] => (Text.digitValue? c).map ([·])
  | c :: '_' :: rest => do return (← Text.digitValue? c) :: (← digitValues? rest)
  | c :: rest => do return (← Text.digitValue? c) :: (← digitValues? rest)

/-- The number that has the given digits. -/
def ofDigits (digits : List Nat) : Nat :=
  digits.foldl (fun n d => 10 * n + d) 0

/-- Splits a leading sign off; the flag says whether the number is negative. -/
def splitSign : List Char → Bool × List Char
  | '-' :: rest => (true, rest)
  | '+' :: rest => (false, rest)
  | cs => (false, cs)

/-- A blank that may surround an integer. The control characters that separate records are white
space elsewhere but none here. -/
def isBlank (c : Char) : Bool :=
  Text.isBlank c && !(0x1c ≤ c.toNat && c.toNat ≤ 0x1f)

/-- A digit of any script or an underscore. -/
def isNumeralChar (c : Char) : Bool := c = '_' || (Text.digitValue? c).isSome

/-- Reads an integer. -/
def read (s : String) : Except IntegerFault Int :=
  let (negative, unsigned) := splitSign (s.toList.dropWhile isBlank)
  match digitValues? (unsigned.takeWhile isNumeralChar) with
  | none => .error .malformed
  | some digits =>
    if digits.length > maxIntegerDigits then .error (.tooLong digits.length)
    else if !(unsigned.dropWhile isNumeralChar).all isBlank then .error .malformed
    else .ok (if negative then -(ofDigits digits : Int) else ofDigits digits)

end Integer

end ScanPlanner
