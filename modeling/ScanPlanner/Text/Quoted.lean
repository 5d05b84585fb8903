import ScanPlanner.Text.Halves
import ScanPlanner.Text.Printable

/-!
# Quoted texts

How a text is shown inside a message: between quotes, with escapes for what could not be read there.
The quotes are single ones, unless the text has a single quote and no double one.
-/

namespace ScanPlanner.Text

/-- A number in hexadecimal with small letters, padded with zeros to at least `width` digits. -/
def hexPadded (width n : Nat) : List Char :=
  let digits := Nat.toDigits 16 n
  List.replicate (width - digits.length) '0' ++ digits

/-- A code point as an escape: two, four or eight digits, the fewest that hold it. -/
def escapeNumber (code : Nat) : List Char :=
  if code < 0x100 then '\\' :: 'x' :: hexPadded 2 code
  else if code < 0x10000 then '\\' :: 'u' :: hexPadded 4 code
  else '\\' :: 'U' :: hexPadded 8 code

/-- A character between the given quotes. -/
def quoteChar (keep : Char → Bool) (quote c : Char) : List Char :=
  if c = quote ∨ c = '\\' then ['\\', c]
  else if c = '\n' then ['\\', 'n']
  else if c = '\t' then ['\\', 't']
  else if c = '\r' then ['\\', 'r']
  else if keep c then [c]
  else escapeNumber c.toNat

/-- A unit of a text between the given quotes. The half of a character is written as a number. -/
def quoteUnit (keep : Char → Bool) (quote : Char) : List Char → List Char
  | [c] => quoteChar keep quote c
  | unit => escapeNumber (codeOf unit)

/-- The quote that a text is put between. -/
def quoteFor (s : String) : Char :=
  if s.toList.contains '\'' && !s.toList.contains '"' then '"' else '\''

/-- A text between quotes, where the characters that `keep` refuses are written as numbers. -/
def quotedKeeping (keep : Char → Bool) (s : String) : String :=
  let quote := quoteFor s
  String.ofList (quote :: (units s.toList).flatMap (quoteUnit keep quote) ++ [quote])

/-- A text between quotes, with every printable character kept. -/
def quoted (s : String) : String :=
  quotedKeeping isPrintable s

/-- A text between quotes, in the first 128 characters only. -/
def quotedPlain (s : String) : String :=
  quotedKeeping (fun c => isPrintable c && c.toNat < 0x80) s

/-- Quoted texts in brackets, parted by commas. -/
def quotedList (texts : List String) : String :=
  "[" ++ String.intercalate ", " (texts.map quoted) ++ "]"

end ScanPlanner.Text
