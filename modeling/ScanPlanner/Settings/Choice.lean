import ScanPlanner.Catalog
import ScanPlanner.Scan.Basic
import ScanPlanner.Text.Upper

/-!
# Choices

Settings that are one of a few words: how batches are grouped, the state of a table, the kind of a
cluster. A choice has a name and a value; a text stands for it if it is the value in any case, or
the name.
-/

namespace ScanPlanner

/-- What there is to choose. -/
inductive Enumeration where
  | grouping
  | state
  | backend
deriving DecidableEq

/-- One of the words that there are to choose from. -/
inductive Choice where
  | grouping (g : Grouping)
  | state (s : TableState)
  | backend (k : BackendKind)
deriving DecidableEq

namespace Choice

/-- What the choice is a choice of. -/
def enumeration : Choice → Enumeration
  | .grouping _ => .grouping
  | .state _ => .state
  | .backend _ => .backend

/-- The value of a choice. -/
def value : Choice → String
  | .grouping .extent => "extent"
  | .grouping .node => "node"
  | .state .online => "ONLINE"
  | .state .offline => "OFFLINE"
  | .backend .live => "live"
  | .backend .inMemory => "in-memory"

/-- The name of a choice. -/
def name : Choice → String
  | .grouping .extent => "EXTENT"
  | .grouping .node => "NODE"
  | .state .online => "ONLINE"
  | .state .offline => "OFFLINE"
  | .backend .live => "LIVE"
  | .backend .inMemory => "IN_MEMORY"

end Choice

namespace Enumeration

/-- The name of an enumeration. -/
def name : Enumeration → String
  | .grouping => "BatchGrouping"
  | .state => "TableState"
  | .backend => "BackendKind"

/-- All choices, in their order. -/
def choices : Enumeration → List Choice
  | .grouping => [.grouping .extent, .grouping .node]
  | .state => [.state .online, .state .offline]
  | .backend => [.backend .live, .backend .inMemory]

/-- The choice that a text stands for. Blanks around the text do not count. No letter beyond ASCII
has one of the letters of the values as its lower-case form, so the case of ASCII is enough for
these; a name is compared with the upper-case form of the text. -/
def ofText? (e : Enumeration) (s : String) : Option Choice :=
  let s := Text.strip s
  (e.choices.find? fun c => c.value.toLower == s.toLower)
    <|> e.choices.find? fun c => c.name == Text.upper s

end Enumeration

/-- A choice as it is shown in a message. -/
def Choice.shown (c : Choice) : String := c.enumeration.name ++ "." ++ c.name

/-- A choice as it is shown in a message, with its value. -/
def Choice.quoted (c : Choice) : String := "<" ++ c.shown ++ ": " ++ Text.quoted c.value ++ ">"

end ScanPlanner
