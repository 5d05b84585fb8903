import ScanPlanner.Planning.Session

/-!
# Rehearsals

Collaborators that play a script: host names are taken from a list, numbers from a cycle, and some
questions and hosts fail.
-/

namespace ScanPlanner

/-- What the collaborators do. -/
structure Script where
  /-- The canonical names of hosts; any other host has its own name after `host-`. -/
  names : Ledger String Json
  failingHosts : List String
  /-- The numbers drawn, over and over; without any, zeros are drawn. -/
  numbers : List Int
  /-- The questions that fail, with the words in which they do. -/
  failing : Ledger Question String

namespace Script

variable {ω : Type} (s : Script)

/-- The canonical name of a host. -/
def canonical (host : String) : Effect ω Json :=
  if s.failingHosts.contains host then throw (.raised ("lookup failed: " ++ host))
  else return (s.names.get? host).getD (.text ("host-" ++ host))

/-- A number of the cycle. -/
def number (i : Nat) : Int := (s.numbers[i % s.numbers.length]?).getD 0

/-- The effect, unless the question is one that fails. -/
def played {α : Type} (q : Question) (effect : Effect ω α) : Effect ω α :=
  match s.failing.get? q with
  | some text => throw (.raised text)
  | none => effect

/-- Collaborators that play the script in front of a backend. -/
def collaborators (b : Backend ω) : Collaborators ω where
  backend := {
    kind := b.kind
    locator := {
      tableId := fun name => s.played .tableId (b.locator.tableId name)
      resolve := fun id ranges => s.played .resolve (b.locator.resolve id ranges)
      invalidate := fun id => s.played .invalidate (b.locator.invalidate id)
      tableExists := fun id => s.played .tableExists (b.locator.tableExists id)
      tableState := fun id => s.played .tableState (b.locator.tableState id) }
    binOffline := fun id ranges => s.played .binOffline (b.binOffline id ranges) }
  canonical := s.canonical
  numbers := s.number

end Script

end ScanPlanner
