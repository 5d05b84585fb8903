import ScanPlanner.Json.Basic
import ScanPlanner.Number.Shortest
import ScanPlanner.Text.Quoted

/-!
# Writing documents

The text of a document that holds a value, without blanks. Characters stand for themselves, except
for the quote, the backslash, control characters and the two separators of lines, and for halves of
characters, which are escaped by number.
-/

namespace ScanPlanner.Json

/-- A code point escaped by number. -/
def escapedCode (code : Nat) : List Char := '\\' :: 'u' :: Text.hexPadded 4 code

/-- The character is written by its number. -/
def isEscaped (c : Char) : Bool :=
  c.toNat < 0x20 || (0x7f ≤ c.toNat && c.toNat < 0xa0) || c.toNat = 0x2028 || c.toNat = 0x2029

/-- A unit of a text inside a document. -/
def writtenUnit : List Char → List Char
  | [c] =>
    if c = '"' ∨ c = '\\' then ['\\', c] else if isEscaped c then escapedCode c.toNat else [c]
  | unit => escapedCode (Text.codeOf unit)

/-- A text inside a document. -/
def writtenText (s : String) : String :=
  "\"" ++ String.ofList ((Text.units s.toList).flatMap writtenUnit) ++ "\""

/-- A number inside a document. -/
def writtenReal : Binary64 → String
  | .nan => "NaN"
  | .infinite negative => if negative then "-Infinity" else "Infinity"
  | x => x.text

mutual

/-- The document that holds a value. -/
def written : Json → String
  | .null => "null"
  | .bool b => if b then "true" else "false"
  | .int n => toString n
  | .real x => writtenReal x
  | .text s => writtenText s
  | .list items => "[" ++ String.intercalate "," (writtenItems items) ++ "]"
  | .object members => "\x7b" ++ String.intercalate "," (writtenMembers members) ++ "\x7d"

/-- The items of a list. -/
def writtenItems : List Json → List String
  | [] => []
  | item :: rest => written item :: writtenItems rest

/-- The members of an object. -/
def writtenMembers : List (String × Json) → List String
  | [] => []
  | (name, value) :: rest =>
    (writtenText name ++ ":" ++ written value) :: writtenMembers rest

end

end ScanPlanner.Json
