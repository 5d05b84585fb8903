import ScanPlanner.Json.Basic
import ScanPlanner.Number.Integer
import ScanPlanner.Text.Halves

/-!
# Tokens of a document

The characters of a document are grouped into tokens by one pass: marks, texts and atoms (the runs
of letters, digits, signs and points, which are numbers or one of six words). Two texts or atoms are
never neighbours in a document, so the longest run is the right one.

What is no token becomes `junk`, which ends the pass unless it is the end of an atom. Whether it is
the first fault of the document depends on the tokens before it.
-/

namespace ScanPlanner.Json

/-- A token. -/
inductive Token where
  | openList
  | closeList
  | openObject
  | closeObject
  | colon
  | comma
  | value (v : Json)
  /-- A whole number of more digits than are read. -/
  | tooLong (digits : Nat)
  | junk

/-! ## Atoms -/

/-- A digit of a number. -/
def isDecimal (c : Char) : Bool := '0' ≤ c && c ≤ '9'

/-- The number that a row of decimal digits stands for. -/
def numeral (digits : List Char) : Nat :=
  Integer.ofDigits (digits.map fun c => c.toNat - '0'.toNat)

/-- Splits the digits of a whole part off: a zero alone, or digits that start with no zero. -/
def wholePart? (cs : List Char) : Option (List Char × List Char) :=
  match cs with
  | '0' :: rest => some (['0'], rest)
  | cs =>
    let digits := cs.takeWhile isDecimal
    if digits.isEmpty then none else some (digits, cs.dropWhile isDecimal)

/-- Splits the digits behind a point off; without any there is no fraction. -/
def fraction (cs : List Char) : List Char × List Char :=
  match cs with
  | '.' :: rest =>
    let digits := rest.takeWhile isDecimal
    if digits.isEmpty then ([], cs) else (digits, rest.dropWhile isDecimal)
  | cs => ([], cs)

/-- Splits a power of ten off, if there is one. -/
def power? (cs : List Char) : Option (Int × List Char) :=
  match cs with
  | [] => none
  | mark :: rest =>
    if mark = 'e' ∨ mark = 'E' then
      let (negative, unsigned) := Integer.splitSign rest
      let digits := unsigned.takeWhile isDecimal
      if digits.isEmpty then none
      else
        let power : Int := numeral digits
        some (if negative then -power else power, unsigned.dropWhile isDecimal)
    else none

/-- The whole number with the given digits, unless they are too many. -/
def wholeToken (negative : Bool) (whole : List Char) : Token :=
  if whole.length > maxIntegerDigits then .tooLong whole.length
  else .value (.int (if negative then -(numeral whole : Int) else numeral whole))

/-- Splits the longest number off: a whole one if it has neither a fraction nor a power of ten. -/
def number? (cs : List Char) : Option (Token × List Char) := do
  let (negative, unsigned) := match cs with
    | '-' :: rest => (true, rest)
    | cs => (false, cs)
  let (whole, rest) ← wholePart? unsigned
  let (fraction, rest) := fraction rest
  let real (power : Int) : Token := .value (.real
    (.ofDecimal negative (numeral (whole ++ fraction)) (power - fraction.length)))
  match power? rest with
  | some (power, rest) => some (real power, rest)
  | none => some (if fraction.isEmpty then wholeToken negative whole else real 0, rest)

/-- The tokens of an atom: a word, or the number that it begins with and junk behind that. -/
def atomTokens (cs : List Char) : List Token :=
  match String.ofList cs with
  | "null" => [.value .null]
  | "true" => [.value (.bool true)]
  | "false" => [.value (.bool false)]
  | "NaN" => [.value (.real .nan)]
  | "Infinity" => [.value (.real (.infinite false))]
  | "-Infinity" => [.value (.real (.infinite true))]
  | _ => match number? cs with
    | some (token, []) => [token]
    | some (token, _ :: _) => [token, .junk]
    | none => [.junk]

/-- A character of an atom. -/
def isAtomChar (c : Char) : Bool :=
  c.isAlphanum || c = '-' || c = '+' || c = '.'

/-! ## The pass -/

/-- Where the pass stands. Characters of the token under way are kept in reverse. -/
inductive Mode where
  | between
  | atom (chars : List Char)
  /-- Inside a text; `high` is the first half of a character that was escaped in two halves. -/
  | text (chars : List Char) (high : Option Nat)
  /-- Behind the backslash of an escape. -/
  | escape (chars : List Char) (high : Option Nat)
  /-- Inside an escape by number, with the digits still to come and the number so far. -/
  | code (chars : List Char) (high : Option Nat) (left : Nat) (number : Nat)

/-- A code point in front of the characters so far. -/
def pushCode (chars : List Char) (code : Nat) : List Char := (Text.ofCode code).reverse ++ chars

/-- The characters of a text in which the first half of a character found no second one. -/
def settle (chars : List Char) (high : Option Nat) : List Char :=
  match high with
  | none => chars
  | some half => pushCode chars half

/-- The state of a text behind an escape by number. -/
def afterCode (chars : List Char) (high : Option Nat) (number : Nat) : Mode :=
  match high with
  | some half =>
    if 0xdc00 ≤ number ∧ number < 0xe000 then
      .text (pushCode chars (0x10000 + (half - 0xd800) * 0x400 + (number - 0xdc00))) none
    else if 0xd800 ≤ number ∧ number < 0xdc00 then .text (pushCode chars half) (some number)
    else .text (pushCode (pushCode chars half) number) none
  | none =>
    if 0xd800 ≤ number ∧ number < 0xdc00 then .text chars (some number)
    else .text (pushCode chars number) none

/-- The character that a one-letter escape stands for. -/
def escaped? : Char → Option Char
  | '"' => some '"'
  | '\\' => some '\\'
  | '/' => some '/'
  | 'b' => some (Char.ofNat 8)
  | 'f' => some (Char.ofNat 12)
  | 'n' => some '\n'
  | 'r' => some '\r'
  | 't' => some '\t'
  | _ => none

/-- The value of a hexadecimal digit. -/
def hexValue? (c : Char) : Option Nat :=
  if isDecimal c then some (c.toNat - '0'.toNat)
  else if 'a' ≤ c ∧ c ≤ 'f' then some (c.toNat - 'a'.toNat + 10)
  else if 'A' ≤ c ∧ c ≤ 'F' then some (c.toNat - 'A'.toNat + 10)
  else none

/-- The mode and the tokens, in reverse, behind a character that starts a token or is none. -/
def startToken (tokens : List Token) (c : Char) : Option (Mode × List Token) :=
  match c with
  | '[' => some (.between, .openList :: tokens)
  | ']' => some (.between, .closeList :: tokens)
  | '{' => some (.between, .openObject :: tokens)
  | '}' => some (.between, .closeObject :: tokens)
  | ':' => some (.between, .colon :: tokens)
  | ',' => some (.between, .comma :: tokens)
  | '"' => some (.text [] none, tokens)
  | ' ' | '\t' | '\n' | '\r' => some (.between, tokens)
  | c => if isAtomChar c then some (.atom [c], tokens) else none

/-- The tokens with those of an atom, whose characters are given in reverse. -/
def endAtom (tokens : List Token) (chars : List Char) : List Token :=
  (atomTokens chars.reverse).reverse ++ tokens

/-- One character inside a text, an escape or its number. -/
def lexText (mode : Mode) (tokens : List Token) (c : Char) : Option (Mode × List Token) :=
  match mode with
  | .text chars high =>
    if c = '"' then
      some (.between, .value (.text (String.ofList (settle chars high).reverse)) :: tokens)
    else if c = '\\' then some (.escape chars high, tokens)
    else if c.toNat < 0x20 then none
    else some (.text (pushCode (settle chars high) c.toNat) none, tokens)
  | .escape chars high =>
    if c = 'u' then some (.code chars high 4 0, tokens)
    else (escaped? c).map fun e => (.text (e :: settle chars high) none, tokens)
  | .code chars high left number =>
    (hexValue? c).map fun digit =>
      let number := 16 * number + digit
      if left ≤ 1 then (afterCode chars high number, tokens)
      else (.code chars high (left - 1) number, tokens)
  | _ => none

/-- The tokens of a row of characters. -/
def lexChars (mode : Mode) (tokens : List Token) (cs : List Char) : List Token :=
  match mode, cs with
  | .between, [] => tokens.reverse
  | .atom chars, [] => (endAtom tokens chars).reverse
  | _, [] => (.junk :: tokens).reverse
  | mode, c :: cs =>
    let (tokens, next) := match mode with
      | .between => (tokens, startToken tokens c)
      | .atom chars =>
        if isAtomChar c then (tokens, some (.atom (c :: chars), tokens))
        else (endAtom tokens chars, startToken (endAtom tokens chars) c)
      | mode => (tokens, lexText mode tokens c)
    match next with
    | some (mode, tokens) => lexChars mode tokens cs
    | none => (.junk :: tokens).reverse

/-- The tokens of a text. -/
def tokens (s : String) : List Token := lexChars .between [] s.toList

end ScanPlanner.Json
