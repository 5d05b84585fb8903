import ScanPlanner.Planning.Session

/-!
# Host names

The node addresses of a binning are turned into the canonical names of their hosts. A host book
remembers the names that it has looked up, so that each host is looked up once while it is
remembered. A lookup that gives null names nothing, and the host is looked up again.
-/

namespace ScanPlanner

/-- The text up to a character that occurs in it. -/
def upTo? (c : Char) : List Char → Option (List Char)
  | [] => none
  | x :: xs => if x = c then some [] else (upTo? c xs).map (x :: ·)

/-- The host of an address: what stands before the first colon, or inside brackets. -/
def hostOf (address : String) : String :=
  let plain := (address.toList.takeWhile (· ≠ ':'))
  match address.toList with
  | '[' :: rest => String.ofList ((upTo? ']' rest).getD plain)
  | _ => String.ofList plain

/-- The host of an address, which has to be a text. -/
def hostOfAddress (address : Address) : Result String :=
  match address with
  | .text s => .ok (hostOf s)
  | _ => .error .noMember

/-- The names of hosts that have been looked up. -/
abbrev HostBook := Lru String Json

/-- The size of a host book that nobody has set. -/
def HostBook.defaultSize : Int := 2147483647

/-- What planning does with a host book at hand. -/
abbrev Naming (ω α : Type) := StateT HostBook (ExceptT Failure (StateM (Session ω))) α

namespace HostBook

variable {ω : Type}

/-- Looks a host up and remembers its name. -/
def lookUp (c : Collaborators ω) (host : String) : Naming ω Json := do
  let session : Session ω ← getThe (Session ω)
  (Step.record (.lookedUp host session.level) : Step ω Unit)
  let name ← (Step.perform (c.canonical host) : Step ω Json)
  (Step.note .debug .hosts ("Resolved " ++ host ++ " to " ++ name.shown) : Step ω Unit)
  set (← (Step.ofResult ((← get).insert host name) : Step ω HostBook))
  return name

/-- The canonical name of the host of an address; an address without a host has the empty name. -/
def resolve (c : Collaborators ω) (address : Address) : Naming ω Json := do
  let host ← (Step.ofResult (hostOfAddress address) : Step ω String)
  if host = "" then return .text ""
  match (← get).find? host with
  | some (name, book) =>
    set book
    if name = .null then lookUp c host else return name
  | none => lookUp c host

end HostBook

end ScanPlanner
