import ScanPlanner.Json.Lexer

/-!
# Reading documents

The tokens of a document are read by one pass that keeps the lists and objects still open on a
stack. `parse` gives the value, or the first reason why the text is no document: a token that is not
due, a whole number of too many digits where a value is due, or too many open lists and objects.
-/

namespace ScanPlanner.Json

/-- Why a text is no document. -/
inductive Fault where
  | malformed
  /-- A whole number has more digits than are read. -/
  | tooLong (digits : Nat)
  /-- Lists and objects are nested deeper than they are read. -/
  | tooDeep
deriving DecidableEq, Repr

/-- The greatest number of lists and objects that are open at once. -/
def maxDepth : Nat := 990

/-- A list or an object that is still open: its items in reverse, or its members so far and the name
whose value is due. -/
inductive Frame where
  | list (items : List Json)
  | object (members : Ledger String Json) (name : String)

/-- What is due next. -/
inductive Due where
  /-- A value; the list around it may end instead if `orEnd`. -/
  | value (orEnd : Bool)
  /-- The name of a member; the object may end instead if `orEnd`. -/
  | name (members : Ledger String Json) (orEnd : Bool)
  /-- The colon behind a name. -/
  | colon (members : Ledger String Json) (name : String)
  /-- What may follow a value. -/
  | next (value : Json)

/-- The state inside a list or an object that has just been opened within the given frames. -/
def opened (frames : List Frame) (state : Due × List Frame) : Except Fault (Due × List Frame) :=
  if frames.length < maxDepth then .ok state else .error .tooDeep

/-- One token, with the open frames from the innermost on. -/
def parseToken (due : Due) (frames : List Frame) (token : Token) :
    Except Fault (Due × List Frame) :=
  match due, frames, token with
  | .value _, frames, .value v => .ok (.next v, frames)
  | .value _, frames, .openList => opened frames (.value true, .list [] :: frames)
  | .value _, frames, .openObject => opened frames (.name [] true, frames)
  | .value _, _, .tooLong digits => .error (.tooLong digits)
  | .value true, .list [] :: frames, .closeList => .ok (.next (.list []), frames)
  | .name members _, frames, .value (.text name) => .ok (.colon members name, frames)
  | .name members true, frames, .closeObject => .ok (.next (.object members), frames)
  | .colon members name, frames, .colon => .ok (.value false, .object members name :: frames)
  | .next v, .list items :: frames, .comma => .ok (.value false, .list (v :: items) :: frames)
  | .next v, .list items :: frames, .closeList =>
    .ok (.next (.list (v :: items).reverse), frames)
  | .next v, .object members name :: frames, .comma =>
    .ok (.name (members.put name v) false, frames)
  | .next v, .object members name :: frames, .closeObject =>
    .ok (.next (.object (members.put name v)), frames)
  | _, _, _ => .error .malformed

/-- The value that a row of tokens completes. -/
def parseTokens : Due → List Frame → List Token → Except Fault Json
  | .next v, [], [] => .ok v
  | _, _, [] => .error .malformed
  | due, frames, token :: rest => do
    let (due, frames) ← parseToken due frames token
    parseTokens due frames rest

/-- The value of a document. -/
def parse (s : String) : Except Fault Json := parseTokens (.value false) [] (tokens s)

end ScanPlanner.Json
