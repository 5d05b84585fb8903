import ScanPlanner.Text.Halves

/-!
# Percent encoding

A text as one segment of a path, and pairs of texts as a form. Letters, digits and four marks stand
for themselves; every other character is written as its bytes, each a percent sign and two
hexadecimal digits. In a form the blank is a plus sign. Only a text without lone halves of
characters has such bytes.
-/

namespace ScanPlanner.Text

/-- The characters that a segment holds as they are. -/
def isUnreserved (c : Char) : Bool :=
  c.isAlphanum || c = '_' || c = '.' || c = '-' || c = '~'

/-- A hexadecimal digit with a capital letter. -/
def hexDigit (n : Nat) : Char :=
  if n < 10 then Char.ofNat (0x30 + n) else Char.ofNat (0x37 + n)

/-- One byte as a percent sign and two digits. -/
def percentByte (b : UInt8) : List Char :=
  ['%', hexDigit (b.toNat / 16), hexDigit (b.toNat % 16)]

/-- One character of a segment. -/
def percentChar (c : Char) : List Char :=
  if isUnreserved c then [c] else (String.utf8EncodeChar c).flatMap percentByte

/-- A text as one segment of a path. -/
def percentEncode (s : String) : String :=
  String.ofList ((characters s).flatMap percentChar)

/-- A text as a name or a value of a form. -/
def formEncode (s : String) : String :=
  String.ofList ((characters s).flatMap fun c => if c = ' ' then ['+'] else percentChar c)

/-- Pairs of names and values as a form. -/
def formPairs (pairs : List (String × String)) : String :=
  String.intercalate "&" (pairs.map fun p => formEncode p.1 ++ "=" ++ formEncode p.2)

end ScanPlanner.Text
