import ScanPlanner.Json.Display
import ScanPlanner.Number.Places

/-!
# Templates

A template is a text with directives, each a percent sign, flags, a width, a precision and a letter;
two percent signs together stand for one. Filling it puts one value after the other into the places
of the directives. It fails if values are missing or left over, if a value is not of the sort that
its directive writes, or if the template is not well formed.
-/

namespace ScanPlanner.Template

/-- Why a template is not filled. -/
inductive Fault where
  /-- Template and values do not fit together. -/
  | mismatch
  /-- A number beyond what can be written. -/
  | outOfRange
deriving DecidableEq

/-- A width or a precision: not given, given, or taken from the values. -/
inductive Amount where
  | absent
  | given (n : Nat)
  | taken
deriving DecidableEq

/-- How a value is written. -/
structure Directive where
  /-- Blanks come behind the value. -/
  left : Bool
  /-- A number that is not negative has a plus sign. -/
  plus : Bool
  /-- A number that is not negative has a blank for its sign. -/
  blank : Bool
  /-- The base of a number is marked, and a point is always written. -/
  marked : Bool
  /-- A number is filled up with zeros. -/
  zero : Bool
  width : Amount
  precision : Amount
  letter : Char
deriving DecidableEq

/-- A directive of which nothing has been read yet. -/
def Directive.bare : Directive :=
  ⟨false, false, false, false, false, .absent, .absent, ' '⟩

/-- A part of a template. -/
inductive Piece where
  | literal (c : Char)
  | directive (d : Directive)
  /-- A directive that is not well formed, with what has been read of it. -/
  | broken (d : Directive)
deriving DecidableEq

/-! ## Reading templates -/

/-- How far a directive has been read. -/
inductive Stage where
  | text
  | first (d : Directive)
  | flags (d : Directive)
  | width (d : Directive) (n : Nat)
  | point (d : Directive)
  | precision (d : Directive)
  | digits (d : Directive) (n : Nat)
  | modifier (d : Directive)
  | letter (d : Directive)

/-- The directive that is being read. -/
def Stage.directive : Stage → Directive
  | .text => .bare
  | .first d | .flags d | .width d _ | .point d | .precision d | .digits d _ | .modifier d
  | .letter d => d

/-- The greatest width. -/
def maxWidth : Nat := 9223372036854775807

/-- The greatest precision. -/
def maxPrecision : Nat := 2147483647

/-- A number with one digit more. -/
def appendDigit (n : Nat) (c : Char) : Nat := 10 * n + (c.toNat - 0x30)

/-- Ends a directive with its letter. -/
def ended (d : Directive) (c : Char) : Stage × List Piece :=
  (.text, [.directive { d with letter := c }])

/-- After the precision: one letter may stand there without a meaning. -/
def afterPrecision (d : Directive) (c : Char) : Stage × List Piece :=
  if c = 'h' || c = 'l' || c = 'L' then (.letter d, []) else ended d c

/-- After the width. -/
def afterWidth (d : Directive) (c : Char) : Stage × List Piece :=
  if c = '.' then (.precision d, []) else afterPrecision d c

/-- After the flags. -/
def afterFlags (d : Directive) (c : Char) : Stage × List Piece :=
  if c = '*' then (.point { d with width := .taken }, [])
  else if c.isDigit then (.width d (appendDigit 0 c), [])
  else afterWidth d c

/-- Among the flags. -/
def amongFlags (d : Directive) (c : Char) : Stage × List Piece :=
  if c = '-' then (.flags { d with left := true }, [])
  else if c = '+' then (.flags { d with plus := true }, [])
  else if c = ' ' then (.flags { d with blank := true }, [])
  else if c = '#' then (.flags { d with marked := true }, [])
  else if c = '0' then (.flags { d with zero := true }, [])
  else afterFlags d c

/-- Reads one character. -/
def advance : Stage → Char → Stage × List Piece
  | .text, c => if c = '%' then (.first .bare, []) else (.text, [.literal c])
  | .first d, c =>
    if c = '%' then (.text, [.literal c])
    else if c = '(' then (.text, [.broken d])
    else amongFlags d c
  | .flags d, c => amongFlags d c
  | .width d n, c =>
    if c.isDigit then
      if appendDigit n c > maxWidth then (.text, [.broken d])
      else (.width d (appendDigit n c), [])
    else afterWidth { d with width := .given n } c
  | .point d, c => afterWidth d c
  | .precision d, c =>
    if c = '*' then (.modifier { d with precision := .taken }, [])
    else if c.isDigit then (.digits d (appendDigit 0 c), [])
    else afterPrecision { d with precision := .given 0 } c
  | .digits d n, c =>
    if c.isDigit then
      if appendDigit n c > maxPrecision then (.text, [.broken d])
      else (.digits d (appendDigit n c), [])
    else afterPrecision { d with precision := .given n } c
  | .modifier d, c => afterPrecision d c
  | .letter d, c => ended d c

/-- Reads the rest of a template. -/
def piecesFrom : Stage → List Char → List Piece
  | .text, [] => []
  | stage, [] => [.broken stage.directive]
  | stage, c :: cs =>
    let (stage, pieces) := advance stage c
    pieces ++ piecesFrom stage cs

/-- The pieces of a template. -/
def pieces (template : String) : List Piece := piecesFrom .text template.toList

/-! ## Writing values -/

/-- A value as it is written before it gets its width: sign, mark of the base, and the rest. -/
structure Written where
  sign : List Char
  mark : List Char
  body : List Char
  /-- The character with which a number is filled up. -/
  fill : Char

/-- A text, of which no more than the precision is written. -/
def writtenText (precision : Option Nat) (s : String) : Written :=
  ⟨[], [], match precision with
    | some n => ((Text.units s.toList).take n).flatten
    | none => s.toList, ' '⟩

/-- The sign of a number. -/
def signOf (d : Directive) (negative : Bool) : List Char :=
  if negative then ['-'] else if d.plus then ['+'] else if d.blank then [' '] else []

/-- A whole number in a base, with as many digits as the precision asks for. -/
def writtenInteger (d : Directive) (precision : Option Nat) (base : Nat) (mark : List Char)
    (n : Int) : Written :=
  let digits := Nat.toDigits base n.natAbs
  let filled := List.replicate (precision.getD 0 - digits.length) '0' ++ digits
  ⟨signOf d (n < 0), if d.marked then mark else [], filled, if d.zero then '0' else ' '⟩

/-- A number with a fraction, six digits of it unless the precision says otherwise. -/
def writtenReal (d : Directive) (precision : Option Nat) (x : Binary64) : Written :=
  let places := precision.getD 6
  let fill := if d.zero then '0' else ' '
  match x with
  | .nan => ⟨signOf d false, [], "nan".toList, fill⟩
  | .infinite negative => ⟨signOf d negative, [], "inf".toList, fill⟩
  | .finite negative mantissa exponent =>
    let (num, den) := Binary64.ratio mantissa exponent
    let body :=
      if d.letter = 'f' || d.letter = 'F' then Places.fixed d.marked places num den
      else if d.letter = 'e' || d.letter = 'E' then Places.scientific d.marked places num den
      else Places.general d.marked places num den
    ⟨signOf d negative, [], body, fill⟩

/-- Capital letters in place of small ones. -/
def Written.capital (w : Written) : Written :=
  { w with mark := w.mark.map Char.toUpper, body := w.body.map Char.toUpper }

/-- A value with its width. -/
def Written.layout (w : Written) (left : Bool) (width : Nat) : List Char :=
  let used := w.sign.length + w.mark.length + (Text.units w.body).length
  let gap := width - used
  if left then w.sign ++ w.mark ++ w.body ++ List.replicate gap ' '
  else if w.fill = ' ' then List.replicate gap ' ' ++ w.sign ++ w.mark ++ w.body
  else w.sign ++ w.mark ++ List.replicate gap w.fill ++ w.body

/-- The whole number that a value is. -/
def wholeOf : Json → Except Fault Int
  | .int n => .ok n
  | .bool b => .ok (if b then 1 else 0)
  | _ => .error .mismatch

/-- The whole number that a value is, without its fraction. -/
def truncated : Json → Except Fault Int
  | .real .nan => .error .mismatch
  | .real x => match x.truncate? with
    | some n => .ok n
    | none => .error .outOfRange
  | v => wholeOf v

/-- The number that a value is. -/
def realOf : Json → Except Fault Binary64
  | .real x => .ok x
  | v => do
    match Binary64.ofInt (← wholeOf v) with
    | .infinite _ => throw .outOfRange
    | x => return x

/-- The character that a value is, or of which it is the code. -/
def charOf : Json → Except Fault (List Char)
  | .text s => match Text.units s.toList with
    | [unit] => .ok unit
    | _ => .error .mismatch
  | v => do
    let code ← wholeOf v
    if code < 0 ∨ 0x10ffff < code then throw .outOfRange
    return Text.ofCode code.toNat

/-- Writes a value as a directive says. -/
def written (d : Directive) (precision : Option Nat) (v : Json) : Except Fault Written :=
  match d.letter with
  | 's' => .ok (writtenText precision v.shown)
  | 'r' => .ok (writtenText precision v.quoted)
  | 'a' => .ok (writtenText precision (v.quotedBy Text.quotedPlain))
  | 'd' | 'i' | 'u' => do return writtenInteger d precision 10 [] (← truncated v)
  | 'o' => do return writtenInteger d precision 8 ['0', 'o'] (← wholeOf v)
  | 'x' => do return writtenInteger d precision 16 ['0', 'x'] (← wholeOf v)
  | 'X' => do return (writtenInteger d precision 16 ['0', 'x'] (← wholeOf v)).capital
  | 'e' | 'f' | 'g' => do return writtenReal d precision (← realOf v)
  | 'E' | 'F' | 'G' => do return (writtenReal d precision (← realOf v)).capital
  | 'c' => do return ⟨[], [], ← charOf v, ' '⟩
  | _ => .error .mismatch

/-- The first of the values, and the others. -/
def next : List Json → Except Fault (Json × List Json)
  | [] => .error .mismatch
  | v :: vs => .ok (v, vs)

/-- The width, whether it asks for blanks behind the value, and the values left. -/
def widthOf (d : Directive) (values : List Json) : Except Fault (Nat × Bool × List Json) :=
  match d.width with
  | .absent => .ok (0, d.left, values)
  | .given n => .ok (n, d.left, values)
  | .taken => do
    let (v, values) ← next values
    let n ← wholeOf v
    if n < -maxWidth - 1 ∨ maxWidth < n then throw .outOfRange
    return (n.natAbs, d.left || decide (n < 0), values)

/-- The precision and the values left. -/
def precisionOf (d : Directive) (values : List Json) : Except Fault (Option Nat × List Json) :=
  match d.precision with
  | .absent => .ok (none, values)
  | .given n => .ok (some n, values)
  | .taken => do
    let (v, values) ← next values
    let n ← wholeOf v
    if n < -maxPrecision - 1 ∨ maxPrecision < n then throw .outOfRange
    return (some n.toNat, values)

/-- Fills one directive. -/
def fillOne (d : Directive) (values : List Json) : Except Fault (List Char × List Json) := do
  let (width, left, values) ← widthOf d values
  let (precision, values) ← precisionOf d values
  let (v, values) ← next values
  return ((← written d precision v).layout left width, values)

/-- Fills pieces with values, all of which have to be used. What a broken directive takes from the
values is looked at before the break is. -/
def fillPieces : List Piece → List Json → Except Fault (List Char)
  | [], [] => .ok []
  | [], _ :: _ => .error .mismatch
  | .literal c :: rest, values => do return c :: (← fillPieces rest values)
  | .directive d :: rest, values => do
    let (cs, values) ← fillOne d values
    return cs ++ (← fillPieces rest values)
  | .broken d :: _, values => do
    let (_, _, values) ← widthOf d values
    let _ ← precisionOf d values
    throw .mismatch

/-- Fills a template with values. -/
def fill (template : String) (values : List Json) : Except Fault String := do
  return String.ofList (← fillPieces (pieces template) values)

end ScanPlanner.Template
