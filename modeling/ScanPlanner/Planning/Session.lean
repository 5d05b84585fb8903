import ScanPlanner.Backend

/-!
# Planning sessions

Planning asks its collaborators in steps. A session records them: each question asked, each host
looked up, each number drawn, each pause, and the notes that the log keeps. A step that fails ends
the planning; what was recorded before stays recorded.
-/

namespace ScanPlanner

/-- What planning asks of the metadata. -/
inductive Question where
  | tableId
  | resolve
  | invalidate
  | tableExists
  | tableState
  | binOffline
deriving DecidableEq

/-- What happens in a session. -/
inductive Event where
  /-- A question about a table, which is given by its name or its id. -/
  | asked (question : Question) (about : TableId)
  /-- A host was looked up while the log had the given level. -/
  | lookedUp (host : String) (level : Int)
  /-- A number below a bound was drawn. -/
  | drew (bound : Nat)
  /-- A pause of some milliseconds began. -/
  | paused (millis : Nat)
  | logged (note : Note)
deriving DecidableEq

/-- Whom planning asks, and where its random numbers come from. -/
structure Collaborators (ω : Type) where
  backend : Backend ω
  /-- The canonical name of a host. Names are texts; what a lookup gives in the place of one is not
  checked. -/
  canonical : String → Effect ω Json
  /-- The numbers drawn, one after the other. -/
  numbers : Nat → Int

/-- The state of a session. -/
structure Session (ω : Type) where
  world : ω
  /-- The level of the log; zero stands for the usual one. -/
  level : Int
  /-- How many numbers have been drawn. -/
  drawn : Nat
  trace : List Event

namespace Session

variable {ω : Type}

/-- The session before its first step. -/
def start (world : ω) : Session ω := ⟨world, 0, 0, []⟩

/-- The least rank of a note that is kept at a level. -/
def threshold (level : Int) : Int := if level = 0 then Severity.warning.rank else level

/-- The log keeps the note. -/
def keeps (s : Session ω) (n : Note) : Bool := decide (threshold s.level ≤ n.severity.rank)

/-- Records an event. -/
def record (s : Session ω) (e : Event) : Session ω := { s with trace := s.trace ++ [e] }

/-- Records those of the notes that the log keeps. -/
def log (s : Session ω) (notes : List Note) : Session ω :=
  { s with trace := s.trace ++ (notes.filter s.keeps).map Event.logged }

end Session

/-- What planning does. -/
abbrev Step (ω α : Type) := ExceptT Failure (StateM (Session ω)) α

namespace Step

variable {ω α : Type}

/-- Records an event. -/
def record (e : Event) : Step ω Unit := modify (·.record e)

/-- Leaves a note. -/
def note (severity : Severity) (source : Source) (text : String) : Step ω Unit :=
  modify (·.log [⟨severity, source, text⟩])

/-- Ends with a value or a failure that is known already. -/
def ofResult : Result α → Step ω α
  | .ok a => pure a
  | .error f => throw f

/-- Lets a collaborator work. -/
def perform (effect : Effect ω α) : Step ω α := fun session =>
  let (result, scene) := effect.run ⟨session.world, []⟩
  (result, { session with world := scene.world }.log scene.notes)

/-- Asks a question about a table. -/
def ask (question : Question) (about : TableId) (effect : Effect ω α) : Step ω α := do
  record (.asked question about)
  perform effect

/-- Draws a number below a bound. -/
def draw (c : Collaborators ω) (bound : Nat) : Step ω Nat := do
  record (.drew bound)
  let session ← get
  set { session with drawn := session.drawn + 1 }
  return (c.numbers session.drawn % bound).toNat

end Step

end ScanPlanner
