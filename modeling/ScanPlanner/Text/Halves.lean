/-!
# Halves of characters

A document may escape a character in two halves, and one of them may come without the other. Such a
half is kept in a text as two characters, a mark and a character that numbers the half, and the mark
itself is kept in the same way; no character is assigned to its code point. `units` takes a text
apart into what counts as one character.

The halves come right behind the mark in the order of code points, so texts that hold some are still
ordered by their code points.
-/

namespace ScanPlanner.Text

/-- The code point of the mark. The halves follow it, up to `afterHalves`. -/
def markCode : Nat := 0xd7ff

/-- The first code point behind the halves. -/
def afterHalves : Nat := 0xe000

/-- The code point of the character that numbers the mark itself. -/
def firstNumber : Nat := 0xac00

/-- The mark of a half. -/
def halfMark : Char := Char.ofNat markCode

/-- The unit with a code point. -/
def ofCode (code : Nat) : List Char :=
  if markCode ≤ code ∧ code < afterHalves then
    [halfMark, Char.ofNat (firstNumber + (code - markCode))]
  else [Char.ofNat code]

/-- The code point of a unit. -/
def codeOf : List Char → Nat
  | [c] => c.toNat
  | _ :: number :: _ => markCode + (number.toNat - firstNumber)
  | [] => 0

/-- The units of a text. -/
def units : List Char → List (List Char)
  | [] => []
  | [c] => [[c]]
  | c :: number :: rest =>
    if c = halfMark then [c, number] :: units rest else [c] :: units (number :: rest)

/-- The unit is a character. -/
def isCharacter (unit : List Char) : Bool :=
  match unit with
  | [c] => c != halfMark
  | unit => unit = ofCode markCode

/-- The text has no half without the other, so it can be written as bytes. -/
def isWhole (s : String) : Bool := (units s.toList).all isCharacter

/-- The characters of a text without lone halves. -/
def characters (s : String) : List Char := (units s.toList).filterMap List.head?

/-- Taking a text apart loses nothing. -/
theorem flatten_units (cs : List Char) : (units cs).flatten = cs := by
  induction cs using units.induct with
  | case1 => rfl
  | case2 c => rfl
  | case3 number rest ih => simp [units, ih]
  | case4 c number rest h ih => simp [units, h, ih]

theorem units_half {code : Nat} (low : markCode ≤ code) (high : code < afterHalves)
    (cs : List Char) : units (ofCode code ++ cs) = ofCode code :: units cs := by
  simp [ofCode, low, high, units]

example : units (ofCode 0xd83d ++ ['a']) = [ofCode 0xd83d, ['a']] := by decide

end ScanPlanner.Text
