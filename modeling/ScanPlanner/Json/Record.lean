import ScanPlanner.Failure

/-!
# Reading records

How a record is read out of a value: members by name, optional or required, the items of whatever
can be walked, and the members of a list of pairs.
-/

namespace ScanPlanner.Json

/-- The member of an object, if there is one. -/
def member? (v : Json) (name : String) : Result (Option Json) :=
  match v with
  | .object members => .ok (Ledger.get? members name)
  | _ => .error .noMember

/-- The member of an object; null stands for one that is not there. -/
def memberOrNull (v : Json) (name : String) : Result Json := do
  return (← v.member? name).getD .null

/-- The member of an object that has to be there. -/
def require (v : Json) (name : String) : Result Json :=
  match v with
  | .object members =>
    match Ledger.get? members name with
    | some value => .ok value
    | none => .error (.missing (Text.quoted name))
  | _ => .error .unlike

/-- The items of a value that can be walked: a list has its items, an object its names and a text
its characters. -/
def items : Json → Result (List Json)
  | .list items => .ok items
  | .object members => .ok (members.map fun m => .text m.1)
  | .text s => .ok ((Text.units s.toList).map fun unit => .text (String.ofList unit))
  | _ => .error .unlike

/-- The items of a value that may be missing, null or empty. -/
def itemsOrNone (v : Json) : Result (List Json) := if v.isPresent then v.items else .ok []

/-- The items of a member that may be missing, null or empty. -/
def memberItems (v : Json) (name : String) : Result (List Json) := do
  (← v.memberOrNull name).itemsOrNone

/-- The text that a value is. -/
def asText : Json → Result String
  | .text s => .ok s
  | _ => .error .unlike

/-- The text that a value is, which has to be one that can be written as bytes. -/
def asWholeText (v : Json) : Result String := do
  let s ← v.asText
  if Text.isWhole s then return s else throw .halfCharacter

/-- The value, unless it is null. -/
def given? : Json → Option Json
  | .null => none
  | v => some v

/-- A value, or null in place of none. -/
def ofGiven (v : Option Json) : Json := v.getD .null

/-! ## Members of other values -/

/-- The name of a member whose key is a value without parts. The members of an object are named by
texts here, so a key that is no text is replaced by the text that it has in a document: the pair
`[2, null]` makes a member `"2"`. That the key was a number is not kept. -/
def memberName : Json → String
  | .text s => s
  | .null => "null"
  | .bool b => if b then "true" else "false"
  | v => v.shown

/-- The key and the value that an item of a list of pairs stands for. -/
def pairOf (place : Nat) (item : Json) : Result (Json × Json) := do
  match ← item.items with
  | [key, value] => if key.isScalar then .ok (key, value) else .error .unlike
  | parts => .error (.invalid (.notPair place parts.length))

/-- The members of a value: an object has its own, a list of pairs those that the pairs stand for,
and a value that does not count as something has none. -/
def membersOf (v : Json) : Result (Ledger String Json) :=
  match v with
  | .object members => .ok members
  | v => do
    let pairs ← (← v.itemsOrNone).zipIdx.mapM fun (item, place) => pairOf place item
    return (Ledger.ofPairs pairs).map fun (key, value) => (key.memberName, value)

/-! ## Numbers -/

/-- Reads a whole number as a setting of numbers does: a truth value counts as zero or one, a text
is read, and a number with a fraction loses it. -/
def toInteger : Json → Result Int
  | .int n => .ok n
  | .bool b => .ok (if b then 1 else 0)
  | .text s => (Integer.read s).mapError (Failure.ofInteger s)
  | .real .nan => .error (.invalid .integerOfNan)
  | .real x => match x.truncate? with
    | some n => .ok n
    | none => .error .outOfRange
  | _ => .error .unlike

end ScanPlanner.Json
