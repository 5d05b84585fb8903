import ScanPlanner.Settings.Value

/-!
# Settings

A setting has a key, a kind, and often a value that it has when nobody gives one. `Settings` are the
values given for some keys, in the order in which they were given; reading one converts it, and
writing one keeps its text.
-/

namespace ScanPlanner

/-- Something that can be set. -/
structure Setting where
  key : String
  kind : Kind
  /-- The value where none is given; it may be none as well. -/
  fallback : Value
  description : String
deriving DecidableEq

namespace Setting

/-- The settings have the same key and fallback. -/
def same (a b : Setting) : Bool := a.key == b.key && a.fallback.same b.fallback

/-- The settings have the same digest, if their fallbacks can be looked up. -/
def sameDigest? (a b : Setting) : Result Bool :=
  Json.sameDigest? (a.fallback.isScalar && b.fallback.isScalar)
    (.list [.text a.key, a.fallback.looked]) (.list [.text b.key, b.fallback.looked])

/-- A setting in a message. -/
def shown (s : Setting) : String :=
  "key: '" ++ s.key ++ "'; default_value: " ++ s.fallback.shown

end Setting

/-- The values given, by key. -/
abbrev Settings := Ledger String Value

namespace Settings

/-- The value of a setting: the one given, converted, or else the preferred one, or else the
setting's own. -/
def value (given : Settings) (s : Setting) (preferred : Value) : Result Value :=
  match given.get? s.key with
  | some v =>
    if v.isSome then v.convert s.kind
    else .ok (if preferred.isSome then preferred else s.fallback)
  | none => .ok (if preferred.isSome then preferred else s.fallback)

/-- A value is given, if only none. -/
def contains (given : Settings) (s : Setting) : Bool := (given.get? s.key).isSome

/-- Gives a setting the text of a value. -/
def assign (given : Settings) (s : Setting) (v : Value) : Settings :=
  given.put s.key (.plain (.text v.toText))

/-- Other values win over the ones given. -/
def merge (given others : Settings) : Settings :=
  others.foldl (fun merged entry => Ledger.put merged entry.1 entry.2) given

/-- Reads settings. -/
def ofJson (v : Json) : Result Settings := do
  return (← v.membersOf).map fun m => (m.1, .plain m.2)

/-- The truth value of a setting of that kind. -/
def flag (given : Settings) (s : Setting) : Result Bool := do
  match ← given.value s .none with
  | .plain (.bool b) => return b
  | _ => throw .unlike

/-- The whole number of a setting of that kind. -/
def number (given : Settings) (s : Setting) : Result Int := do
  match ← given.value s .none with
  | .plain v => v.toInteger
  | _ => throw .unlike

end Settings

end ScanPlanner
