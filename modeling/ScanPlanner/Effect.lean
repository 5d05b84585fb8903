import ScanPlanner.Failure

/-!
# Effects

Planning asks its collaborators: a metadata catalog, a lookup of host names. What a collaborator
does is an `Effect ω α`: it reads and changes a world `ω`, leaves notes for the log, and ends with a
value or a failure. What it has changed before a failure stays changed.
-/

namespace ScanPlanner

/-- How important a note is. -/
inductive Severity where
  | debug
  | info
  | warning
deriving DecidableEq

/-- The least level of the log at which a note is still kept. -/
def Severity.rank : Severity → Int
  | .debug => 10
  | .info => 20
  | .warning => 30

/-- The part of the library that leaves a note. -/
inductive Source where
  | planning
  | locating
  | splits
  | hosts
  | locator
  | offline
  | backoff
deriving DecidableEq

/-- A note for the log. -/
structure Note where
  severity : Severity
  source : Source
  text : String
deriving DecidableEq

/-- A world, and the notes left so far. -/
structure Scene (ω : Type) where
  world : ω
  notes : List Note

/-- What a collaborator does in a world `ω`. -/
abbrev Effect (ω α : Type) := ExceptT Failure (StateM (Scene ω)) α

namespace Effect

variable {ω Ω α : Type}

/-- Leaves a note. -/
def note (n : Note) : Effect ω Unit :=
  modify fun scene => { scene with notes := scene.notes ++ [n] }

/-- The world. -/
def world : Effect ω ω := do return (← get).world

/-- Changes the world. -/
def setWorld (world : ω) : Effect ω Unit := modify fun scene => { scene with world }

/-- Ends with a value or a failure that is known already. -/
def ofResult : Result α → Effect ω α
  | .ok a => pure a
  | .error f => throw f

/-- What a world tells without being changed. -/
def ask (question : ω → Result α) : Effect ω α := do ofResult (question (← world))

/-- Changes the world, or leaves it as it is and fails. -/
def change (f : ω → Result ω) : Effect ω Unit := do setWorld (← ofResult (f (← world)))

/-- Does something in a part of a larger world. -/
def within (part : Ω → ω) (replace : Ω → ω → Ω) (effect : Effect ω α) : Effect Ω α := fun scene =>
  let (result, inner) := effect.run ⟨part scene.world, scene.notes⟩
  (result, ⟨replace scene.world inner.world, inner.notes⟩)

end Effect

end ScanPlanner
