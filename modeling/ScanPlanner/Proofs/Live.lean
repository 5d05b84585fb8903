import ScanPlanner.Proofs.Missing
import ScanPlanner.Proofs.Path
import ScanPlanner.Proofs.ServedPlanning
import ScanPlanner.Proofs.TableNames
import ScanPlanner.Proofs.TabletRecord

/-!
# Live tables

A service is faithful to a registry if it sends for each table that the registry has its id, its
state in letters of any case and its tablets in any order, and has nothing to send for any other
(`Service.Faithful`). Then the tables behind the service are read as those of the registry are, and
so ranges are located, assigned and planned alike (`Registry.live_eq_inMemory`). Names and ids with
halves of characters are left out: no request can be made for them.
-/

namespace ScanPlanner

/-! ## Responses -/

namespace Response

/-- The response shows an object with the given members. -/
def ShowsObject (response : Response) (members : Ledger String Json) : Prop :=
  response.status = 200 ∧ response.document = .ok (.object members)

/-- The response shows a table: its id, and its state in letters of any case. -/
def ShowsTable (response : Response) (id : TableId) (state : TableState) : Prop :=
  ∃ members word, response.ShowsObject members ∧ members.get? "id" = some id ∧
    members.get? "state" = some (.text word) ∧ Text.upper word = state.name

/-- The response shows tablets in any order. They are those of the table, each shown once. -/
def ShowsTablets (response : Response) (tablets : List Tablet) : Prop :=
  ∃ members items listed, response.ShowsObject members ∧
    members.get? "tablets" = some (.list items) ∧
    List.Forall₂ Json.ShowsTablet items listed ∧ listed.Perm tablets

/-- The response says that there is nothing to show. A body would be read for a code of its own, so
there is none. -/
def ShowsNothing (response : Response) : Prop := response.status = 404 ∧ response.body = ""

variable {response : Response} {α : Type} {read : Json → Result α}

/-- A response that shows an object is heard as what the object is read as: it is no error, and its
body is a document. -/
theorem heard_of_showsObject {members : Ledger String Json} (h : response.ShowsObject members)
    {a : α} (hread : read (.object members) = .ok a) : response.heard read = .ok (some a) := by
  obtain ⟨status, document⟩ := h
  have value : response.value read = .ok a := by
    have ok : response.isOk = true := by
      unfold isOk
      rw [status]
      decide
    unfold Response.value
    rw [ok, if_neg (by decide), if_neg (body_ne_of_ok document), document]
    exact hread
  unfold heard
  rw [value]

/-- A response with nothing to show is heard as the absence of the resource, and not as a
failure. -/
theorem heard_of_showsNothing (h : response.ShowsNothing) (read : Json → Result α) :
    response.heard read = .ok none := by
  obtain ⟨status, body⟩ := h
  have failed : response.value read =
      .error (.service (.ofReply (.ofStatus "response body is null" 404) response.requestId)) := by
    have bad : response.isOk = false := by
      unfold isOk
      rw [status]
      decide
    unfold Response.value errorReply
    rw [bad, if_pos (by decide), body, if_pos rfl, status]
    rfl
  rw [heard_of_error failed, isNoSuchResource_ofReply]
  decide

/-- A table that is shown is heard with its id and state, in whatever case the state is written. -/
theorem heard_of_showsTable {id : TableId} {state : TableState}
    (h : response.ShowsTable id state) : ∃ table : TableReply,
      response.heard TableReply.ofJson = .ok (some table) ∧ table.id = id ∧
        ServiceClient.stateOf table = .ok state := by
  obtain ⟨members, word, shown, hid, hstate, upper⟩ := h
  refine ⟨⟨id, (Ledger.get? members "name").getD .null, .text word⟩,
    heard_of_showsObject shown ?_, rfl, ?_⟩
  · unfold TableReply.ofJson Json.memberOrNull Json.member?
    simp only [hid, hstate]
    rfl
  · show TableState.ofName (.text (Text.upper word)) = .ok state
    rw [upper]
    cases state <;> rfl

/-- Tablets that are shown are heard in the order in which they were sent, as long as they can be
written at all. -/
theorem heard_of_showsTablets {tablets : List Tablet} (h : response.ShowsTablets tablets)
    (typed : ∀ t ∈ tablets, t.IsTyped) : ∃ listed : List Tablet, listed.Perm tablets ∧
      response.heard TabletsReply.ofJson = .ok (some ⟨some (listed.map some)⟩) := by
  obtain ⟨members, items, listed, shown, htablets, each, perm⟩ := h
  refine ⟨listed, perm, heard_of_showsObject shown ?_⟩
  have read := Json.mapM_orNull_of_shows each fun t ht => typed t (perm.subset ht)
  unfold TabletsReply.ofJson Json.memberOrNull Json.member?
  simp only [htablets]
  show (items.mapM (Json.orNull Tablet.ofJson) >>= fun ts => Pure.pure (some ts)) >>= _ = _
  rw [read]
  rfl

end Response

/-- A reply in which no tablet is missing stands for its tablets, sorted. So the order in which a
service sends them does not matter. -/
theorem ServiceClient.tabletsOf_map_some (listed : List Tablet) :
    tabletsOf ⟨some (listed.map some)⟩ = Tablet.sort listed := by
  unfold tabletsOf
  rw [Option.getD_some, List.mapM_map]
  -- none of them is missing
  show listed.mapM (fun t => (pure t : Result Tablet)) >>= _ = _
  rw [List.mapM_pure, List.map_id']
  rfl

/-! ## Faithful services -/

/-- The request asks for a resource of the service. -/
def Request.AsksFor (q : Request) (uri path : String) : Prop :=
  q.method = "GET" ∧ q.url = uri ++ path

/-- The response shows what there is, or that there is nothing. This is all that is known of the
service, which may write its documents as it likes. -/
def Response.Tells {α : Type} (response : Response) (found : Result α)
    (shows : Response → α → Prop) : Prop :=
  (∀ a, found = .ok a → shows response a) ∧ ∀ f, found = .error f → response.ShowsNothing

namespace Response.Tells

variable {α : Type} {response : Response} {shows : Response → α → Prop}

theorem ok {a : α} (h : shows response a) : response.Tells (.ok a) shows := by
  refine ⟨fun b same => ?_, fun f => nofun⟩
  cases same
  exact h

theorem error (h : response.ShowsNothing) (f : Failure) : response.Tells (.error f) shows :=
  ⟨nofun, fun _ _ => h⟩

end Response.Tells

/-- Whenever the service is asked for a table, its response tells what the registry has. The
response may depend on how many requests there were before, and nothing is said of other
requests. -/
structure Service.Faithful (serve : Service) (uri : String) (r : Registry) : Prop where
  byName : ∀ before q name, Text.isWhole name = true →
    q.AsksFor uri (ResourcePath.tableByName name) →
      (serve before q).Tells (r.named (.text name)) fun response found =>
        response.ShowsTable found.1 found.2.state
  byId : ∀ before q id, Text.isWhole id = true →
    q.AsksFor uri (ResourcePath.tableById id) →
      (serve before q).Tells (r.table (.text id)) fun response t =>
        response.ShowsTable (.text id) t.state
  tablets : ∀ before q id, Text.isWhole id = true →
    q.AsksFor uri (ResourcePath.tablets id) →
      (serve before q).Tells (r.table (.text id)) fun response t =>
        response.ShowsTablets t.tablets.values

/-- The second one does the same as the first one, begun in the same state with a line to the
service: it ends with the same result and leaves the same state, where the line has been used for
some requests, each of them answered by the service. -/
def Service.SameOver {α σ τ : Type} (serve : Service) (swap : Swap σ τ)
    (x : ExceptT Failure (StateM σ) α) (y : ExceptT Failure (StateM τ) α) (s : σ) : Prop :=
  ∀ sent logged, ∃ requests logged', ∀ rest,
    outcome y (swap.onto s ⟨serve.answers sent.length requests ++ rest, sent, logged⟩) =
      ((outcome x s).1, swap.onto (outcome x s).2 ⟨rest, sent ++ requests, logged'⟩)

/-- An effect whose results agree exactly does the same as the one that it follows. -/
theorem FollowsAt.same {α σ τ : Type} {serve : Service} {swap : Swap σ τ}
    {x : ExceptT Failure (StateM σ) α} {y : ExceptT Failure (StateM τ) α} {s : σ}
    (h : FollowsAt serve swap Eq x y s) : serve.SameOver swap x y s := by
  intro sent logged
  obtain ⟨requests, logged', result, agree, run⟩ := h.2 sent logged
  rw [agree.eq] at run
  exact ⟨requests, logged', run⟩

/-- One request is made, and what is made of its answer is what the registry tells. The four
questions of a catalog differ in nothing but the path and the reading. -/
theorem FollowsAt.of_answer {α β : Type} {R : α → β → Prop} {serve : Service} {r : Registry}
    {uri path : String} {question : Registry → Result α} {effect : Effect Line β}
    {answer : Response → Result β}
    (run : ∀ (line : Line) (response : Response) (rest : List Answer) (notes : List Note),
      line.pending = .response response :: rest → outcome effect ⟨line, notes⟩ =
        (answer response, ⟨line.answered (uri ++ path) response rest, notes⟩))
    (same : ∀ before q, q.AsksFor uri path → Agree R (question r) (answer (serve before q)))
    (notes : List Note) :
    FollowsAt serve .scene R (Effect.ask question) effect ⟨r, notes⟩ := by
  unfold FollowsAt
  rw [Effect.outcome_ask]
  refine ⟨rfl, fun sent logged => ?_⟩
  -- the answer may depend on how many requests were made before
  let q : Request := ⟨"GET", uri ++ path, ServiceClient.timeout⟩
  let response := serve sent.length q
  refine ⟨[q], (Line.answered ⟨[], sent, logged⟩ (uri ++ path) response []).logged, answer response,
    same sent.length q ⟨rfl, rfl⟩, fun rest => ?_⟩
  exact run ⟨.response response :: rest, sent, logged⟩ response rest notes rfl

namespace Registry

variable {r : Registry} {id : TableId} {name : TableName} {f : Failure}

/-- The registry fails to give the id of a name only because it does not know the name. A name that
cannot be looked up would fail otherwise. -/
theorem tableId_eq_error (scalar : name.isScalar = true) (h : r.tableId name = .error f) :
    f = .unknownTable name := by
  unfold tableId at h
  rw [scalar] at h
  cases hname : r.names.get? name with
  | some id =>
    rw [hname] at h
    cases h
  | none =>
    rw [hname] at h
    cases h
    rfl

/-- The registry fails to give a table only because it does not know its id. -/
theorem table_eq_error (scalar : id.isScalar = true) (h : r.table id = .error f) :
    f = .unknownTableId id := by
  cases hid : r.tables.get? id with
  | some t =>
    rw [table_of_get? scalar hid] at h
    cases h
  | none =>
    rw [table_of_none scalar hid] at h
    cases h
    rfl

/-- A table exists if the registry gives it. -/
theorem tableExists_eq (scalar : id.isScalar = true) :
    r.tableExists id = .ok (r.table id).isOk := by
  unfold tableExists
  rw [scalar]
  cases hid : r.tables.get? id with
  | some t =>
    rw [table_of_get? scalar hid]
    rfl
  | none =>
    rw [table_of_none scalar hid]
    rfl

/-- The tablets of each table are such that they can be sent in any order. They are put in order
again by where they end, so that no two of them may end alike. -/
structure Sendable (r : Registry) : Prop where
  filed : r.Each Table.Filed
  typed : r.Each fun tablets => ∀ t ∈ tablets.values, t.IsTyped
  ends : r.Each fun tablets => (tablets.values.map fun t => t.extent.last).Nodup

/-- The tablets that a service sends for a table are those of the table, in order. -/
theorem Sendable.sorted_eq (h : r.Sendable) {t : Table} (ht : r.table id = .ok t)
    {listed : List Tablet} (perm : listed.Perm t.tablets.values) :
    Tablet.sort listed = t.sorted := by
  have typed := each_table h.typed ht
  rw [Tablet.sort_of_perm (fun t ht => (typed t ht).id) (each_table h.ends ht) perm]
  refine Eq.symm (Table.sorted_eq_sort (each_table h.filed ht) fun entry he => ?_)
  exact (typed entry.2 (List.mem_map_of_mem he)).id

end Registry

/-! ## Reading from a faithful service -/

namespace Response

variable {response : Response} {r : Registry} {name : TableName} {id : TableId}

/-- The id that is read from a response is that of the registry, and it is one that can be written
in a request. -/
theorem agree_tableId (scalar : name.isScalar = true) (lead : r.NamesLead)
    (h : response.Tells (r.named name) fun response found =>
      response.ShowsTable found.1 found.2.state) :
    Agree (fun id id' => id' = id ∧ id.IsSegment) (r.tableId name) (response.tableId name) := by
  unfold Response.tableId heardOr
  cases hid : r.tableId name with
  | ok id =>
    -- a name that has an id has a table, so there is something to send
    obtain ⟨t, named⟩ := lead.exists_named hid
    obtain ⟨table, heard, same, -⟩ := heard_of_showsTable (h.1 _ named)
    rw [heard]
    exact .ok ⟨same, lead.exists_text hid⟩
  | error f =>
    have unknown : r.named name = .error f := by
      unfold Registry.named
      rw [hid]
      rfl
    rw [heard_of_showsNothing (h.2 f unknown), Registry.tableId_eq_error scalar hid]
    exact .error _

/-- Whether a table exists is read as the registry has it: a response that shows nothing says that
it does not. -/
theorem agree_tableExists (scalar : id.isScalar = true)
    (h : response.Tells (r.table id) fun response t => response.ShowsTable id t.state) :
    Agree Eq (r.tableExists id) response.tableExists := by
  rw [Registry.tableExists_eq scalar]
  unfold Response.tableExists
  cases ht : r.table id with
  | ok t =>
    obtain ⟨table, heard, -⟩ := heard_of_showsTable (h.1 t ht)
    rw [heard]
    exact .ok rfl
  | error f =>
    rw [heard_of_showsNothing (h.2 f ht)]
    exact .ok rfl

/-- The state that is read from a response is that of the registry. If there is no such table, both
sides say so in the same words. -/
theorem agree_tableState (scalar : id.isScalar = true)
    (h : response.Tells (r.table id) fun response t => response.ShowsTable id t.state) :
    Agree Eq (r.tableState id) (response.tableState id) := by
  unfold Response.tableState heardOr Registry.tableState
  cases ht : r.table id with
  | ok t =>
    obtain ⟨table, heard, -, state⟩ := heard_of_showsTable (h.1 t ht)
    rw [heard]
    show Agree Eq (.ok t.state) (ServiceClient.stateOf table)
    rw [state]
    exact .ok rfl
  | error f =>
    rw [heard_of_showsNothing (h.2 f ht), Registry.table_eq_error scalar ht]
    exact .error _

/-- The tablets that are read from a response are those of the registry in its order. No two of them
may end at the same row, or their order would depend on how they are sent. -/
theorem agree_tablets (scalar : id.isScalar = true) (sendable : r.Sendable)
    (h : response.Tells (r.table id) fun response t => response.ShowsTablets t.tablets.values) :
    Agree Eq (r.tablets id) (response.tablets id) := by
  unfold Response.tablets heardOr Registry.tablets
  cases ht : r.table id with
  | ok t =>
    obtain ⟨listed, perm, heard⟩ :=
      heard_of_showsTablets (h.1 t ht) (Registry.each_table sendable.typed ht)
    rw [heard]
    show Agree Eq t.sorted (ServiceClient.tabletsOf ⟨some (listed.map some)⟩)
    -- sorting undoes the order in which the tablets were sent
    rw [ServiceClient.tabletsOf_map_some, sendable.sorted_eq ht perm]
    cases t.sorted with
    | ok tablets => exact .ok rfl
    | error f => exact .error f
  | error f =>
    rw [heard_of_showsNothing (h.2 f ht), Registry.table_eq_error scalar ht]
    exact .error _

end Response

/-- The four questions have the answers of the registry, each over one request. That names lead to
tables matters for the first one: the service shows a table where the registry only tells its id. -/
theorem Service.Faithful.follows {serve : Service} {c : ServiceClient} {r : Registry}
    (h : serve.Faithful c.uri r) (lead : r.NamesLead) (sendable : r.Sendable) :
    c.catalog.Follows serve r where
  tableId segment notes := by
    obtain ⟨s, rfl, whole⟩ := segment
    exact .of_answer (fun _ _ _ notes pending => ServiceClient.outcome_tableId pending whole notes)
      (fun before q asks => Response.agree_tableId rfl lead (h.byName before q s whole asks)) notes
  tableExists segment notes := by
    obtain ⟨s, rfl, whole⟩ := segment
    exact .of_answer
      (fun _ _ _ notes pending => ServiceClient.outcome_tableExists pending whole notes)
      (fun before q asks => Response.agree_tableExists rfl (h.byId before q s whole asks)) notes
  tableState segment notes := by
    obtain ⟨s, rfl, whole⟩ := segment
    exact .of_answer
      (fun _ _ _ notes pending => ServiceClient.outcome_tableState pending whole notes)
      (fun before q asks => Response.agree_tableState rfl (h.byId before q s whole asks)) notes
  tablets segment notes := by
    obtain ⟨s, rfl, whole⟩ := segment
    exact .of_answer (fun _ _ _ notes pending => ServiceClient.outcome_tablets pending whole notes)
      (fun before q asks =>
        Response.agree_tablets rfl sendable (h.tablets before q s whole asks)) notes

/-! ## Two services -/

namespace Response

/-- How a table that is split once is shown: its state is written in its own way, and its upper
tablet comes first. -/
def halvesTable : Response :=
  ⟨200, "\x7b\"id\":\"1\",\"name\":\"t\",\"state\":\"onLine\"\x7d", []⟩

@[inherit_doc halvesTable]
def halvesTablets : Response :=
  ⟨200, "\x7b\"tablets\":[\x7b\"tableId\":\"1\",\"prevEndRow\":\"m\",\"endRow\":null," ++
    "\"location\":\"b:1\",\"lastLocation\":null\x7d,\x7b\"tableId\":\"1\",\"prevEndRow\":null," ++
    "\"endRow\":\"m\",\"location\":\"a:1\",\"lastLocation\":null\x7d]\x7d", []⟩

theorem showsTable_halves : halvesTable.ShowsTable (.text "1") .online :=
  ⟨[("id", .text "1"), ("name", .text "t"), ("state", .text "onLine")], "onLine",
    ⟨rfl, by decide +kernel⟩, rfl, rfl, by decide +kernel⟩

/-- The order in which the tablets are sent does not matter either. -/
theorem showsTablets_halves : halvesTablets.ShowsTablets
    [⟨.lowerHalf, some (.text "a:1"), none⟩, ⟨.upperHalf, some (.text "b:1"), none⟩] := by
  let listed : List Tablet :=
    [⟨.upperHalf, some (.text "b:1"), none⟩, ⟨.lowerHalf, some (.text "a:1"), none⟩]
  refine ⟨[("tablets", .list (listed.map Tablet.toJson))], _, listed, ⟨rfl, by decide +kernel⟩, rfl,
    ?_, List.Perm.swap _ _ _⟩
  exact List.forall₂_map_left_iff.mpr (List.forall₂_same.mpr fun t _ => t.showsTablet_toJson)

end Response

/-- A service that has no tables. -/
def Service.none : Service := fun _ _ => ⟨404, "", []⟩

theorem Service.faithful_none : none.Faithful "http://meta" .empty where
  byName _ _ _ _ _ := .error ⟨rfl, rfl⟩ _
  byId _ _ _ _ _ := .error ⟨rfl, rfl⟩ _
  tablets _ _ _ _ _ := .error ⟨rfl, rfl⟩ _

/-- A service that has a table that is split once, and no other one. -/
def Service.halves : Service := fun _ q =>
  if q.url = "http://meta" ++ ResourcePath.tableByName "t" ∨
      q.url = "http://meta" ++ ResourcePath.tableById "1" then .halvesTable
  else if q.url = "http://meta" ++ ResourcePath.tablets "1" then .halvesTablets
  else ⟨404, "", []⟩

namespace Service

variable {before : Nat} {q : Request} {s : String}

/-- Asked for a name, the service shows its table if it is that name and nothing otherwise. -/
theorem halves_tableByName (whole : Text.isWhole s = true)
    (asks : q.AsksFor "http://meta" (ResourcePath.tableByName s)) :
    halves before q = if s = "t" then .halvesTable else ⟨404, "", []⟩ := by
  have name : ResourcePath.tableByName s = ResourcePath.tableByName "t" ↔ s = "t" :=
    ⟨ResourcePath.tableByName_inj whole (by decide), congrArg _⟩
  unfold halves
  simp only [asks.2, String.append_right_inj, name, ResourcePath.tableByName_ne_tableById,
    ResourcePath.tableByName_ne_tablets, or_false, if_false]

/-- Asked for an id, it shows its table if it is that id and nothing otherwise. -/
theorem halves_tableById (whole : Text.isWhole s = true)
    (asks : q.AsksFor "http://meta" (ResourcePath.tableById s)) :
    halves before q = if s = "1" then .halvesTable else ⟨404, "", []⟩ := by
  have id : ResourcePath.tableById s = ResourcePath.tableById "1" ↔ s = "1" :=
    ⟨ResourcePath.tableById_inj whole (by decide), congrArg _⟩
  unfold halves
  simp only [asks.2, String.append_right_inj, id, ResourcePath.tableById_ne_tablets,
    (ResourcePath.tableByName_ne_tableById _ _).symm, false_or, if_false]

/-- Asked for tablets, it shows them if it is that id and nothing otherwise. -/
theorem halves_tablets (whole : Text.isWhole s = true)
    (asks : q.AsksFor "http://meta" (ResourcePath.tablets s)) :
    halves before q = if s = "1" then .halvesTablets else ⟨404, "", []⟩ := by
  have id : ResourcePath.tablets s = ResourcePath.tablets "1" ↔ s = "1" :=
    ⟨ResourcePath.tablets_inj whole (by decide), congrArg _⟩
  unfold halves
  simp only [asks.2, String.append_right_inj, id, (ResourcePath.tableById_ne_tablets _ _).symm,
    (ResourcePath.tableByName_ne_tablets _ _).symm, or_self, if_false]

end Service

namespace Registry

variable {state : TableState} {lower upper : Option Address} {s : String}

/-- The registry with this table knows no other name. -/
theorem halves_named_of_ne (h : s ≠ "t") :
    (halves state lower upper).named (.text s) = .error (.unknownTable (.text s)) := by
  unfold named tableId halves Ledger.get?
  rw [Json.text_beq_text, decide_eq_false h.symm]
  rfl

/-- It knows no other id. -/
theorem halves_table_of_ne (h : s ≠ "1") :
    (halves state lower upper).table (.text s) = .error (.unknownTableId (.text s)) := by
  refine table_of_none rfl ?_
  unfold halves Ledger.get?
  rw [Json.text_beq_text, decide_eq_false h.symm]
  rfl

end Registry

/-- The service is faithful to the table that is split once. -/
theorem Service.faithful_halves : halves.Faithful "http://meta"
    (.halves .online (some (.text "a:1")) (some (.text "b:1"))) where
  byName before q name whole asks := by
    rw [halves_tableByName whole asks]
    -- what is asked for is the table, or nothing that the registry has
    by_cases t : name = "t"
    · subst t
      exact .ok Response.showsTable_halves
    · rw [if_neg t, Registry.halves_named_of_ne t]
      exact .error ⟨rfl, rfl⟩ _
  byId before q id whole asks := by
    rw [halves_tableById whole asks]
    by_cases one : id = "1"
    · subst one
      exact .ok Response.showsTable_halves
    · rw [if_neg one, Registry.halves_table_of_ne one]
      exact .error ⟨rfl, rfl⟩ _
  tablets before q id whole asks := by
    rw [halves_tablets whole asks]
    by_cases one : id = "1"
    · subst one
      exact .ok Response.showsTablets_halves
    · rw [if_neg one, Registry.halves_table_of_ne one]
      exact .error ⟨rfl, rfl⟩ _

/-- A plan for a job that reads the table, with the metadata of a catalog. -/
def Planning.halvesPlan {ω : Type} (kind : BackendKind) (c : Catalog ω) (world : ω) :
    Result Plan × Session (Cached ω) :=
  outcome (plan (.ofCatalog kind c (.ok ∘ .text) fun _ => 7) halvesJob [] [])
    (.start ⟨world, .empty 1⟩)

/-- The plan is made, and without a pause, because both halves are hosted. -/
theorem Planning.exists_halvesPlan :
    ∃ p s', halvesPlan .inMemory Registry.catalog
        (.halves .online (some (.text "a:1")) (some (.text "b:1"))) = (.ok p, s') ∧
      s'.pauses = [] := by
  obtain ⟨p, s', planned⟩ := exists_of_isOk_outcome (show (halvesPlan .inMemory Registry.catalog
    (.halves .online (some (.text "a:1")) (some (.text "b:1")))).1.isOk = true by decide +kernel)
  have none : (halvesPlan .inMemory Registry.catalog
      (.halves .online (some (.text "a:1")) (some (.text "b:1")))).2.pauses = [] := by
    decide +kernel
  rw [planned] at none
  exact ⟨p, s', planned, none⟩

/-! ## Reading either one -/

/-- What is read over a line to the service is what is read from the registry: what the catalog
says, where ranges are and how they are assigned, and any plan that takes no pause. -/
structure ServiceClient.ReadsAs (c : ServiceClient) (serve : Service) (r : Registry) : Prop where
  tableId : ∀ {name : TableName}, name.IsSegment → ∀ notes,
    serve.SameOver .scene (Registry.catalog.tableId name) (c.catalog.tableId name) ⟨r, notes⟩
  tableExists : ∀ {id : TableId}, id.IsSegment → ∀ notes,
    serve.SameOver .scene (Registry.catalog.tableExists id) (c.catalog.tableExists id) ⟨r, notes⟩
  tableState : ∀ {id : TableId}, id.IsSegment → ∀ notes,
    serve.SameOver .scene (Registry.catalog.tableState id) (c.catalog.tableState id) ⟨r, notes⟩
  tablets : ∀ {id : TableId}, id.IsSegment → ∀ notes,
    serve.SameOver .scene (Registry.catalog.tablets id) (c.catalog.tablets id) ⟨r, notes⟩
  resolve : ∀ {id : TableId}, id.IsSegment → ∀ ranges known notes,
    serve.SameOver .cached ((Locator.cached Registry.catalog).resolve id ranges)
      ((Locator.cached c.catalog).resolve id ranges) ⟨⟨r, known⟩, notes⟩
  bin : ∀ {id : TableId}, id.IsSegment → ∀ ranges notes,
    serve.SameOver .scene (Offline.bin Registry.catalog id ranges) (Offline.bin c.catalog id ranges)
      ⟨r, notes⟩
  /-- What would happen in pauses may differ. -/
  plan : ∀ {job : Job}, (∀ entry ∈ job.scans, entry.1.IsSegment) →
    ∀ (lookup : String → Result Json) (numbers : Nat → Int) (authorizations : List Json)
      (schedule : Schedule (Cached Registry)) (schedule' : Schedule (Cached Line))
      (s : Session (Cached Registry)), s.world.backing = r →
    (outcome (Planning.plan (.ofCatalog .inMemory Registry.catalog lookup numbers) job
      authorizations schedule) s).2.pauses = [] →
    serve.SameOver .session
      (Planning.plan (.ofCatalog .inMemory Registry.catalog lookup numbers) job authorizations
        schedule)
      (Planning.plan (.ofCatalog .live c.catalog lookup numbers) job authorizations schedule') s

namespace Registry

/-- After any history in which no two tablets of a table are left with the same end row, it makes no
difference whether tables are read from the registry or from a service that is faithful to it. -/
theorem live_eq_inMemory {r : Registry} {changes : List Change}
    (history : r = Schedule.worldAfter empty (changes.map carryOut))
    (typed : r.Each fun tablets => ∀ t ∈ tablets.values, t.IsTyped)
    (ends : r.Each fun tablets => (tablets.values.map fun t => t.extent.last).Nodup)
    {c : ServiceClient} {serve : Service} (faithful : serve.Faithful c.uri r) :
    c.ReadsAs serve r := by
  have filed : r.Each Table.Filed := history ▸ filed_of_history changes
  have lead : r.NamesLead := history ▸ namesLead_of_history changes
  -- everything that is read goes through the four questions, so the rest follows from their answers
  have follows : c.catalog.Follows serve r := faithful.follows lead ⟨filed, typed, ends⟩
  exact {
    tableId := fun name notes =>
      ((follows.tableId name notes).imp fun _ _ same => same.1.symm).same
    tableExists := fun id notes => (follows.tableExists id notes).same
    tableState := fun id notes => (follows.tableState id notes).same
    tablets := fun id notes => (follows.tablets id notes).same
    resolve := fun id ranges known notes =>
      (Catalog.Follows.resolve (s := ⟨⟨r, known⟩, notes⟩) follows id ranges).same
    bin := fun id ranges notes =>
      (Catalog.Follows.bin (s := ⟨⟨r, .empty 0⟩, []⟩) follows id ranges notes).same
    plan := fun segments lookup numbers authorizations schedule schedule' s backing none =>
      ((follows.plan .inMemory .live lookup numbers _ authorizations segments schedule
        schedule').follows s backing none).same }

/-- The job for the table that is split once is planned over the service as over the registry. -/
theorem live_eq_inMemory_halves :
    ∃ p s', Planning.halvesPlan .inMemory catalog
        (halves .online (some (.text "a:1")) (some (.text "b:1"))) = (.ok p, s') ∧
      ∃ requests logged, ∀ rest,
        Planning.halvesPlan .live (⟨"http://meta", .none⟩ : ServiceClient).catalog
            ⟨Service.halves.answers 0 requests ++ rest, [], []⟩ =
          (.ok p, Swap.session.onto s' ⟨rest, requests, logged⟩) := by
  have history : halves .online (some (.text "a:1")) (some (.text "b:1")) =
      Schedule.worldAfter empty (splitting.map carryOut) := rfl
  have typed : (halves .online (some (.text "a:1")) (some (.text "b:1"))).Each
      fun tablets => ∀ t ∈ tablets.values, t.IsTyped := by
    refine List.forall_mem_singleton.mpr fun t ht => ?_
    rcases List.mem_pair.mp ht with rfl | rfl <;> exact ⟨⟨_, rfl⟩, rfl, nofun, nofun⟩
  -- the two tablets end at different rows, so their order does not depend on how they are sent
  have ends : (halves .online (some (.text "a:1")) (some (.text "b:1"))).Each
      fun tablets => (tablets.values.map fun t => t.extent.last).Nodup :=
    List.forall_mem_singleton.mpr (by decide)
  have segments : ∀ entry ∈ Planning.halvesJob.scans, entry.1.IsSegment :=
    List.forall_mem_singleton.mpr ⟨"t", rfl, by decide⟩
  obtain ⟨p, s', planned, none⟩ := Planning.exists_halvesPlan
  have live := live_eq_inMemory (c := ⟨"http://meta", .none⟩) history typed ends
    Service.faithful_halves
  have same := live.plan segments (.ok ∘ .text) (fun _ => 7) [] [] []
    (.start ⟨halves .online (some (.text "a:1")) (some (.text "b:1")), .empty 1⟩) rfl
  unfold Planning.halvesPlan at planned
  rw [planned] at same
  obtain ⟨requests, logged, run⟩ := same none [] []
  rw [planned] at run
  exact ⟨p, s', planned, requests, logged, run⟩

/-- There is no request for a name with half of a character, so such a name is not just unknown: the
service is not asked, while the registry tells that it has no such table. -/
theorem not_same_half :
    Service.none.Faithful "http://meta" empty ∧
    ¬Service.none.SameOver .scene (catalog.tableId (.text (String.ofList (Text.ofCode 0xd800))))
      ((⟨"http://meta", .none⟩ : ServiceClient).catalog.tableId
        (.text (String.ofList (Text.ofCode 0xd800)))) ⟨empty, []⟩ := by
  refine ⟨Service.faithful_none, fun same => ?_⟩
  obtain ⟨requests, logged, run⟩ := same [] []
  have run := run []
  rw [ServiceClient.outcome_tableId_of_half (by decide)] at run
  cases congrArg Prod.fst run

end Registry

end ScanPlanner
