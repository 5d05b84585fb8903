import ScanPlanner.Settings.Choice

/-!
# Values of settings

A setting is given as a value of a document or as a choice, and is converted to its kind: a truth
value, a whole number, a text, or a choice of some enumeration. `Value.toFlag`, `Value.toInteger`,
`Value.toText` and `Value.toChoice` always convert; `Value.convert` leaves null as it is, and also
most values that are of the wanted kind already, where a truth value counts as a whole number and a
choice counts as a text.
-/

namespace ScanPlanner

/-- The value of a setting. -/
inductive Value where
  | plain (v : Json)
  | choice (c : Choice)
deriving DecidableEq

/-- The kinds of values that a setting may have. -/
inductive Kind where
  | flag
  | integer
  | text
  | real
  | list
  | choice (e : Enumeration)
deriving DecidableEq

/-- The name of a kind. -/
def Kind.name : Kind → String
  | .flag => "bool"
  | .integer => "int"
  | .text => "str"
  | .real => "float"
  | .list => "list"
  | .choice e => e.name

namespace Value

/-- No value. -/
def none : Value := .plain .null

/-- There is a value. -/
def isSome (v : Value) : Bool := v != none

/-- The kind of a value in a message. -/
def kindName : Value → String
  | .plain v => "<class '" ++ v.kindName ++ "'>"
  | .choice c => "<enum '" ++ c.enumeration.name ++ "'>"

/-- A value in a message. -/
def shown : Value → String
  | .plain v => v.shown
  | .choice c => c.shown

/-- A value in a message, a text with quotes. -/
def quoted : Value → String
  | .plain v => v.quoted
  | .choice c => c.quoted

/-- The values mean the same; a choice means the same as its value does. -/
def same : Value → Value → Bool
  | .plain v, .plain w => v == w
  | .choice c, .choice d => c.value == d.value
  | .plain v, .choice c => v == .text c.value
  | .choice c, .plain v => v == .text c.value

/-- The value can be looked up. -/
def isScalar : Value → Bool
  | .plain v => v.isScalar
  | .choice _ => true

/-- What stands for the value in a look-up; for a choice it is the name. -/
def looked : Value → Json
  | .plain v => v
  | .choice c => .text c.name

/-! ## Conversions -/

/-- The text of a value that is or has one. -/
def text? : Value → Option String
  | .plain (.text s) => some s
  | .choice c => some c.value
  | _ => .none

/-- The failure to convert a value. -/
def unconverted (shown target : String) (choices : Option (List String)) : Failure :=
  .invalid (.notConverted shown target choices)

/-- The words for a truth value. -/
def flagWords (s : String) : Option Bool :=
  if s ∈ ["true", "1", "yes", "on"] then some true
  else if s ∈ ["false", "0", "no", "off"] then some false
  else .none

/-- Converts to a truth value. A word for one may be in any case and between blanks, and a number is
true if it is not zero. -/
def toFlag (v : Value) : Result Bool :=
  match v with
  | .plain (.bool b) => .ok b
  | .plain (.int n) => .ok (n != 0)
  | .plain (.real x) => .ok (!x.isZero)
  | v => match v.text? with
    | some s => match flagWords (Text.strip s).toLower with
      | some b => .ok b
      | .none => .error (unconverted ("'" ++ v.shown ++ "'") "boolean" .none)
    | .none => .error (unconverted v.kindName "boolean" .none)

/-- Converts to a whole number. A text is read, and a number loses its fraction. -/
def toInteger (v : Value) : Result Int :=
  match v with
  | .plain (.bool _) => .error (unconverted "bool" "int" .none)
  | .plain (.int n) => .ok n
  | .plain (.real x) => (Json.real x).toInteger
  | v => match v.text? with
    | some s => (Json.text (Text.strip s)).toInteger
    | .none => .error (unconverted v.kindName "int" .none)

/-- Converts to a text. -/
def toText : Value → String
  | .plain (.bool b) => if b then "true" else "false"
  | .plain v => v.shown
  | .choice c => c.value

/-- Converts to a choice of an enumeration. -/
def toChoice (e : Enumeration) (v : Value) : Result Choice :=
  match v with
  | .choice c => if c.enumeration = e then .ok c else ofText c.value
  | .plain (.text s) => ofText s
  | v => .error (unconverted v.kindName e.name .none)
where
  /-- The choice that a text stands for. -/
  ofText (s : String) : Result Choice :=
    match e.ofText? s with
    | some c => .ok c
    | .none =>
      .error (unconverted ("'" ++ v.shown ++ "'") e.name (some (e.choices.map Choice.value)))

/-- The value is of the kind already; a truth value is a whole number too, and a choice is a text.
-/
def isOf (k : Kind) (v : Value) : Bool :=
  match k, v with
  | .integer, .plain (.int _) => true
  | .integer, .plain (.bool _) => true
  | .text, .plain (.text _) => true
  | .text, .choice _ => true
  | .real, .plain (.real _) => true
  | .list, .plain (.list _) => true
  | _, _ => false

/-- Converts a value, if there is one, to a kind. -/
def convert (k : Kind) (v : Value) : Result Value :=
  if !v.isSome then .ok v
  else match k with
    | .choice e => return .choice (← v.toChoice e)
    | .flag => return .plain (.bool (← v.toFlag))
    | k =>
      if v.isOf k then .ok v
      else match k with
        | .text => .ok (.plain (.text v.toText))
        | .integer => return .plain (.int (← v.toInteger))
        | k => .error (.invalid (.unsupportedTarget ("<class '" ++ k.name ++ "'>")))

end Value

end ScanPlanner
