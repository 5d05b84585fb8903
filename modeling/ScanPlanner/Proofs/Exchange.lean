import ScanPlanner.Proofs.Outcome
import ScanPlanner.Service.Catalog

/-!
# What a response tells

A question to the catalog of a metadata service is one request, sent to the path of a resource, and
its answer is read out of the response alone. `Response.heard` is what the response tells of the
resource, and `Response.tableId`, `Response.tableExists`, `Response.tableState` and
`Response.tablets` are the answers to the four questions; `ServiceClient.outcome_tableId` and its
like say so. A name or an id that cannot be part of a path is not asked for
(`ServiceClient.outcome_tableId_of_half`).
-/

namespace ScanPlanner

/-! ## Addresses -/

namespace Text

/-- A list is not dropped as a whole if its last item stays. -/
theorem dropWhile_concat_ne_nil {α : Type} {p : α → Bool} {x : α} (h : p x = false) (xs : List α) :
    (xs ++ [x]).dropWhile p ≠ [] := by
  induction xs with
  | nil => simp [h]
  | cons y ys ih =>
    rw [List.cons_append, List.dropWhile_cons]
    split
    · exact ih
    · exact List.cons_ne_nil _ _

/-- A text that begins with no blank is not blank. Paths begin with a slash, so they are never taken
for missing. -/
theorem strip_ne_of_head {s : String} {c : Char} {cs : List Char} (h : s.toList = c :: cs)
    (hc : isBlank c = false) : strip s ≠ "" := by
  unfold strip stripChars
  rw [h, List.dropWhile_cons, hc]
  simp only [Bool.false_eq_true, if_false, List.reverse_cons]
  have some := dropWhile_concat_ne_nil hc cs.reverse
  intro none
  have none := congrArg String.toList none
  rw [String.toList_ofList] at none
  exact some (List.reverse_eq_nil_iff.mp none)

end Text

namespace ServiceUri

/-- The address of a request is the address of the service with the path behind it. -/
theorem request_path {path : String} {cs : List Char} (h : path.toList = '/' :: cs)
    (uri : String) : request uri (some path) [] = .ok (uri ++ path) := by
  have some : Text.strip path ≠ "" := Text.strip_ne_of_head h (by decide)
  unfold request
  simp only [Option.getD_some, if_neg some]
  rfl

end ServiceUri

namespace ResourcePath

/-- The path of a table by its name begins with a slash. -/
theorem exists_toList_tableByName (name : String) :
    ∃ cs, (tableByName name).toList = '/' :: cs := by
  unfold tableByName
  rw [String.toList_append]
  exact ⟨_, rfl⟩

/-- The path of a table by its id begins with a slash. -/
theorem exists_toList_tableById (id : String) : ∃ cs, (tableById id).toList = '/' :: cs := by
  unfold tableById
  rw [String.toList_append]
  exact ⟨_, rfl⟩

/-- The path of the tablets of a table begins with a slash. -/
theorem exists_toList_tablets (id : String) : ∃ cs, (tablets id).toList = '/' :: cs := by
  obtain ⟨cs, h⟩ := exists_toList_tableById id
  unfold tablets
  rw [String.toList_append, h]
  exact ⟨_, rfl⟩

end ResourcePath

/-! ## Responses -/

namespace Response

variable {α : Type} (r : Response)

/-- What the response tells of a resource; none if there is no such resource. A failure of the
service is passed on, and every other one is a failure of the exchange. -/
def heard (read : Json → Result α) : Result (Option α) :=
  match r.value read with
  | .ok a => .ok (some a)
  | .error f =>
    if ServiceClient.isNoSuchResource f then .ok none
    else .error (if f.isService then f else .exchangeFailed f)

/-- What is made of the resource; if there is none, the given failure. All questions of a catalog
are of this form and differ in the failure and in what is made. -/
def heardOr {β : Type} (missing : Failure) (read : Json → Result α) (make : α → Result β) :
    Result β := do
  match ← r.heard read with
  | some a => make a
  | none => throw missing

/-- The id of the table that has a name. -/
def tableId (name : TableName) : Result TableId :=
  r.heardOr (.unknownTable name) TableReply.ofJson fun table => .ok table.id

/-- There is a table with the id. -/
def tableExists : Result Bool := do return (← r.heard TableReply.ofJson).isSome

/-- The state of the table with an id. -/
def tableState (id : TableId) : Result TableState :=
  r.heardOr (.unknownTableId id) TableReply.ofJson ServiceClient.stateOf

/-- The tablets of the table with an id, in ascending order. -/
def tablets (id : TableId) : Result (List Tablet) :=
  r.heardOr (.unknownTableId id) TabletsReply.ofJson ServiceClient.tabletsOf

end Response

/-! ## Requests -/

/-- The line after a request to an address has been answered. -/
def Line.answered (line : Line) (url : String) (r : Response) (rest : List Answer) : Line where
  pending := rest
  sent := line.sent ++ [⟨"GET", url, ServiceClient.timeout⟩]
  logged := line.logged ++ ["Request [unknown]: GET " ++ url] ++
    ["Response [" ++ r.requestId ++ "]: " ++ toString r.status]

namespace ServiceClient

variable {α : Type} {c : ServiceClient} {line : Line} {r : Response} {rest : List Answer}

/-- A whole text can be part of a path as it is. -/
theorem outcome_segment {s : String} (whole : Text.isWhole s = true) (scene : Scene Line) :
    outcome (segment (.text s)) scene = (.ok s, scene) := by
  unfold segment Json.asWholeText Json.asText
  rw [Effect.outcome_ofResult, Result.bind_ok, if_pos whole]
  rfl

/-- A text with half of a character is no part of a path. -/
theorem outcome_segment_of_half {s : String} (half : Text.isWhole s = false) (scene : Scene Line) :
    outcome (segment (.text s)) scene = (.error .halfCharacter, scene) := by
  unfold segment Json.asWholeText Json.asText
  rw [Effect.outcome_ofResult, Result.bind_ok, half]
  rfl

/-- Sending a request takes the next answer from the line, and records what was sent. -/
theorem outcome_send (pending : line.pending = .response r :: rest) (url : String)
    (notes : List Note) :
    outcome (send url) ⟨line, notes⟩ = (.ok r, ⟨line.answered url r rest, notes⟩) := by
  unfold send
  rw [outcome_bind, Effect.outcome_world]
  simp only [pending]
  rfl

/-- Asking for a resource sends one request, and tells what the response tells of it. Only failures
of the service are caught: a resource that is not there is told as none. -/
theorem outcome_found (pending : line.pending = .response r :: rest) {path : String}
    {cs : List Char} (hpath : path.toList = '/' :: cs) (read : Json → Result α)
    (notes : List Note) :
    outcome (found? (c.get read (some path) [])) ⟨line, notes⟩ =
      (r.heard read, ⟨line.answered (c.uri ++ path) r rest, notes⟩) := by
  have asked : outcome (c.get read (some path) []) ⟨line, notes⟩ =
      ((r.value read).mapError (fun f => if f.isService then f else .exchangeFailed f),
        ⟨line.answered (c.uri ++ path) r rest, notes⟩) := by
    unfold get
    rw [ServiceUri.request_path hpath, outcome_bind, Effect.outcome_ofResult]
    simp only [outcome_tryCatch, outcome_bind, outcome_send pending, Effect.outcome_ofResult]
    cases r.value read <;> rfl
  unfold found? Response.heard
  simp only [outcome_tryCatch, outcome_bind, asked]
  cases r.value read with
  | ok a => rfl
  | error f =>
    simp only [Except.mapError]
    -- a failure of the service stays what it is, and any other one is none of a missing resource
    cases hf : f.isService with
    | true => cases hm : isNoSuchResource f <;> simp only [if_true, hm] <;> rfl
    | false =>
      have other : isNoSuchResource f = false := by
        cases f with
        | service e => cases hf
        | _ => rfl
      have broken : isNoSuchResource (.exchangeFailed f) = false := rfl
      simp only [Bool.false_eq_true, if_false, other, broken]
      rfl

/-- A resource that is asked for and made something of. What happens if it is missing is given by
the question, as tables are named by different words. -/
theorem outcome_foundOr {β : Type} {effect : Effect Line α} {read : Json → Result α}
    {scene scene' : Scene Line} (h : outcome (found? effect) scene = (r.heard read, scene'))
    (missing : Failure) (make : α → Result β) :
    outcome (do Effect.ofResult (make (← foundOr missing effect))) scene =
      (r.heardOr missing read make, scene') := by
  unfold foundOr Response.heardOr
  simp only [outcome_bind, h]
  cases r.heard read with
  | error f => rfl
  | ok found =>
    cases found with
    | none => rfl
    | some a => exact Effect.outcome_ofResult _ _

/-! ### Questions -/

variable {s : String}

/-- The id of a table is asked for by one request to the path of its name. The name has to be whole:
one with half a character has no path, and is refused before anything is sent. -/
theorem outcome_tableId (pending : line.pending = .response r :: rest)
    (whole : Text.isWhole s = true) (notes : List Note) :
    outcome (c.catalog.tableId (.text s)) ⟨line, notes⟩ =
      (r.tableId (.text s),
        ⟨line.answered (c.uri ++ ResourcePath.tableByName s) r rest, notes⟩) := by
  obtain ⟨cs, hpath⟩ := ResourcePath.exists_toList_tableByName s
  have found := outcome_found (c := c) pending hpath TableReply.ofJson notes
  unfold catalog
  rw [outcome_bind, outcome_segment whole]
  exact outcome_foundOr found (.unknownTable (.text s)) fun table => .ok table.id

/-- For a name with half of a character no request is sent. -/
theorem outcome_tableId_of_half (half : Text.isWhole s = false) (scene : Scene Line) :
    outcome (c.catalog.tableId (.text s)) scene = (.error .halfCharacter, scene) := by
  unfold catalog
  rw [outcome_bind, outcome_segment_of_half half]

/-- What is told of a table by its id is asked for by one request to the path of the id. Whether the
table exists and what state it is in are both read off this. -/
theorem outcome_tableById (pending : line.pending = .response r :: rest)
    (whole : Text.isWhole s = true) (notes : List Note) :
    outcome (found? (c.tableById (.text s))) ⟨line, notes⟩ =
      (r.heard TableReply.ofJson,
        ⟨line.answered (c.uri ++ ResourcePath.tableById s) r rest, notes⟩) := by
  obtain ⟨cs, hpath⟩ := ResourcePath.exists_toList_tableById s
  have asked := outcome_found (c := c) pending hpath TableReply.ofJson notes
  unfold found? at asked ⊢
  unfold tableById
  simp only [outcome_tryCatch, outcome_bind, outcome_segment whole] at asked ⊢
  exact asked

/-- Whether a table exists is told by one request to the path of its id. -/
theorem outcome_tableExists (pending : line.pending = .response r :: rest)
    (whole : Text.isWhole s = true) (notes : List Note) :
    outcome (c.catalog.tableExists (.text s)) ⟨line, notes⟩ =
      (r.tableExists, ⟨line.answered (c.uri ++ ResourcePath.tableById s) r rest, notes⟩) := by
  unfold catalog Response.tableExists
  simp only [outcome_bind, outcome_tableById pending whole]
  cases r.heard TableReply.ofJson <;> rfl

/-- The state of a table is told by one request to the path of its id. -/
theorem outcome_tableState (pending : line.pending = .response r :: rest)
    (whole : Text.isWhole s = true) (notes : List Note) :
    outcome (c.catalog.tableState (.text s)) ⟨line, notes⟩ =
      (r.tableState (.text s),
        ⟨line.answered (c.uri ++ ResourcePath.tableById s) r rest, notes⟩) :=
  outcome_foundOr (outcome_tableById pending whole notes) (.unknownTableId (.text s)) stateOf

/-- The tablets of a table are told by one request to their own path below that of the id. -/
theorem outcome_tablets (pending : line.pending = .response r :: rest)
    (whole : Text.isWhole s = true) (notes : List Note) :
    outcome (c.catalog.tablets (.text s)) ⟨line, notes⟩ =
      (r.tablets (.text s),
        ⟨line.answered (c.uri ++ ResourcePath.tablets s) r rest, notes⟩) := by
  obtain ⟨cs, hpath⟩ := ResourcePath.exists_toList_tablets s
  have found := outcome_found (c := c) pending hpath TabletsReply.ofJson notes
  unfold catalog
  rw [outcome_bind, outcome_segment whole]
  exact outcome_foundOr found (.unknownTableId (.text s)) tabletsOf

end ServiceClient

end ScanPlanner
