import ScanPlanner.Proofs.Exchange

/-!
# Missing tables

A table is missing if the service answers with an error whose code is 404. The code of an error is
the one that its body states, and otherwise the status of the response (`Response.errorCode`); so a
status of 404 alone does not make a table missing, and any other status may
(`ServiceClient.missing_against_status`). The four questions to the catalog agree on that
(`ServiceClient.catalog_of_response`), whatever the body holds; only of a status of 404 with a body
that is a document and no object nothing is said.
-/

namespace ScanPlanner

/-! ## Failures of reading -/

/-- A failure about the form of a value, which neither planning nor an exchange reports. What reads
the document of a response fails in no other way. -/
def Failure.isFormal : Failure → Bool
  | .unlike => true
  | .noMember => true
  | .missing _ => true
  | .invalid _ => true
  | _ => false

/-- The result can only fail because of the form of a value. -/
def Result.Formal {α : Type} (x : Result α) : Prop := ∀ f, x = .error f → f.isFormal = true

namespace Result

variable {α β : Type}

theorem formal_ok (a : α) : Formal (.ok a : Result α) := fun _ h => by cases h

theorem formal_error {f : Failure} (h : f.isFormal = true) : Formal (.error f : Result α) := by
  intro g hg
  cases hg
  exact h

/-- Two parts that only fail because of form make up a whole that does. -/
theorem Formal.bind {x : Result α} {g : α → Result β} (hx : x.Formal) (hg : ∀ a, (g a).Formal) :
    (x >>= g).Formal := by
  intro f h
  rcases bind_eq_error.mp h with h | ⟨a, -, h⟩
  · exact hx f h
  · exact hg a f h

/-- A list is read formally if each of its items is. -/
theorem formal_mapM {g : α → Result β} (hg : ∀ a, (g a).Formal) (xs : List α) :
    (xs.mapM g).Formal := by
  induction xs with
  | nil => exact formal_ok []
  | cons x xs ih =>
    rw [List.mapM_cons]
    exact (hg x).bind fun _ => ih.bind fun _ => formal_ok _

end Result

open Result

theorem Json.int_beq_int (m n : Int) : (int m == int n) = decide (m = n) := by
  show decide ((int m).canonical = (int n).canonical) = _
  simp [canonical]

/-- A member can only be missing because the value is no object. -/
theorem Json.formal_memberOrNull (v : Json) (name : String) : (v.memberOrNull name).Formal := by
  unfold memberOrNull
  refine Formal.bind ?_ fun _ => formal_ok _
  unfold member?
  cases v with
  | object members => exact formal_ok _
  | _ => exact formal_error rfl

theorem RowKey.formal_ofJson (v : Json) : (RowKey.ofJson v).Formal := formal_ok _

/-- An extent is not read if its table is not there, or if its rows cannot be told apart or are in
the wrong order. -/
theorem Extent.formal_ofJson (v : Json) : (Extent.ofJson v).Formal := by
  have tableId : (v.require "tableId").Formal := by
    unfold Json.require
    cases v with
    | object members =>
      dsimp only
      split
      · exact formal_ok _
      · exact formal_error rfl
    | _ => exact formal_error rfl
  have make (id : TableId) (prev last : Option RowKey) : (Extent.make id prev last).Formal := by
    unfold Extent.make
    split
    · exact formal_ok _
    · split
      · split <;> exact formal_error rfl
      · exact formal_error rfl
  -- the two rows are read alike, one after the other
  have row (name : String) {α : Type} {g : Option RowKey → Result α} (hg : ∀ k, (g k).Formal) :
      (v.memberOrNull name >>= fun m => RowKey.ofJson m >>= g).Formal :=
    (Json.formal_memberOrNull v name).bind fun m => (RowKey.formal_ofJson m).bind hg
  exact tableId.bind fun id => row _ fun prev => row _ fun last => make id prev last

/-- A tablet is not read only if its extent is not. -/
theorem Tablet.formal_ofJson (v : Json) : (Tablet.ofJson v).Formal :=
  (Extent.formal_ofJson v).bind fun _ => (Json.formal_memberOrNull v _).bind fun _ =>
    (Json.formal_memberOrNull v _).bind fun _ => formal_ok _

theorem TableReply.formal_ofJson (v : Json) : (TableReply.ofJson v).Formal :=
  (Json.formal_memberOrNull v _).bind fun _ => (Json.formal_memberOrNull v _).bind fun _ =>
    (Json.formal_memberOrNull v _).bind fun _ => formal_ok _

/-- A reply about tablets is not read only because something in it has another form, and never
because a resource is missing. -/
theorem TabletsReply.formal_ofJson (v : Json) : (TabletsReply.ofJson v).Formal := by
  -- a member that is null is read as none, whatever reads the others
  have orNull {α : Type} {read : Json → Result α} (hread : ∀ v, (read v).Formal) (v : Json) :
      (v.orNull read).Formal := by
    unfold Json.orNull
    split
    · exact formal_ok _
    · exact (hread _).bind fun _ => formal_ok _
  have items (v : Json) : v.items.Formal := by
    unfold Json.items
    split
    · exact formal_ok _
    · exact formal_ok _
    · exact formal_ok _
    · exact formal_error rfl
  refine (Json.formal_memberOrNull v _).bind fun v => Formal.bind ?_ fun _ => formal_ok _
  exact orNull (fun v => (items v).bind fun vs => formal_mapM (orNull Tablet.formal_ofJson) vs) v

namespace ServiceClient

/-- A state that is unknown is a matter of form: the table is there, but what is said of it is not
understood. -/
theorem formal_stateOf (t : TableReply) : (stateOf t).Formal := by
  unfold stateOf TableState.ofName
  split
  · split
    · exact formal_ok _
    · split
      · exact formal_ok _
      · exact formal_error rfl
  · exact formal_error rfl

/-- A list of tablets with one missing, or with tablets that cannot be sorted, is a matter of form
as well. -/
theorem formal_tabletsOf (t : TabletsReply) : (tabletsOf t).Formal := by
  unfold tabletsOf
  refine Formal.bind (formal_mapM (fun tablet => ?_) _) fun tablets => ?_
  · cases tablet with
    | none => exact formal_error rfl
    | some tablet => exact formal_ok _
  · unfold Tablet.sort Extent.sortOn Sorting.sort?
    split
    · exact formal_ok _
    · exact formal_error rfl

end ServiceClient

/-! ## The code of an error -/

namespace Response

variable {α : Type} (r : Response)

/-- The code that the body states, if it is an object that has one. -/
def statedCode? : Option Json :=
  match r.document with
  | .ok (.object members) => (Ledger.get? members "code").bind Json.given?
  | _ => none

/-- The code of an error: the stated one, or else the status. Anything can be stated, also what is
no number. -/
def errorCode : Json := r.statedCode?.getD (.int r.status)

/-- The response is an error whose code says that there is no such resource. An error whose body
states another code is not one, whatever its status. -/
def isMissing : Bool := !r.isOk && r.errorCode == .int 404

/-- The body is none, no document at all, or an object. Of a document that is something else no code
can be read. -/
def Regular : Prop :=
  r.body = "" ∨ (∃ f, r.document = .error f ∧ f.isInvalid = true) ∨
    ∃ members, r.document = .ok (.object members)

variable {r}

/-- Without a code of its own, a body leaves it to the status. This is the usual case: a service
that knows no such table answers with 404. -/
theorem isMissing_of_statedCode?_eq_none (h : r.statedCode? = none) :
    r.isMissing = decide (r.status = 404) := by
  unfold isMissing errorCode
  rw [h, Option.getD_none]
  by_cases missing : r.status = 404
  · unfold isOk
    rw [missing]
    decide
  · rw [Json.int_beq_int, decide_eq_false missing, Bool.and_false]

theorem document_of_empty (h : r.body = "") : r.document = .error .noDocument := by
  unfold document
  rw [h]
  rfl

theorem body_ne_of_ok {v : Json} (h : r.document = .ok v) : r.body ≠ "" := by
  intro none
  rw [document_of_empty none] at h
  cases h

/-- A body that is not read does not fail as a service does, so it is reported as a failure of the
exchange. -/
theorem isService_of_document {f : Failure} (h : r.document = .error f) : f.isService = false := by
  unfold document at h
  cases hp : Json.parse r.body with
  | ok v =>
    rw [hp] at h
    cases h
  | error fault =>
    rw [hp] at h
    cases h
    cases fault <;> rfl

/-- Without a document the code is the status. -/
theorem errorCode_of_error {f : Failure} (h : r.document = .error f) :
    r.errorCode = .int r.status := by
  unfold errorCode statedCode?
  rw [h]
  rfl

/-- What the members of an object say, with the status in place of a code that is not there. A code
of null is as good as none. -/
theorem errorReply_of_object {members : List (String × Json)}
    (h : r.document = .ok (.object members)) :
    ∃ reply, r.errorReply = .ok reply ∧ reply.code = r.errorCode := by
  have some := body_ne_of_ok h
  unfold errorReply errorCode statedCode?
  rw [if_neg some, h]
  refine ⟨_, rfl, ?_⟩
  dsimp only
  cases hcode : Ledger.get? members "code" with
  | none => simp
  | some code => cases code <;> simp [Json.given?]

/-- A body that is none of the forms is irregular unless it is simply no document. -/
theorem regular_iff_of_error {f : Failure} (h : r.document = .error f) (some : r.body ≠ "") :
    r.Regular ↔ f.isInvalid = true := by
  unfold Regular
  rw [h]
  simp [some]

/-- A document is regular if it is an object. -/
theorem regular_iff_of_ok {v : Json} (h : r.document = .ok v) :
    r.Regular ↔ ∃ members, v = .object members := by
  have some := body_ne_of_ok h
  unfold Regular
  rw [h]
  simp [some]

/-- A document that is no object is no error: it has no members to be read, and reading it fails. -/
theorem errorReply_of_ok {v : Json} (h : r.document = .ok v)
    (other : ¬∃ members, v = .object members) :
    r.errorReply = .error .noMember ∧ r.errorCode = .int r.status := by
  have some := body_ne_of_ok h
  unfold errorReply errorCode statedCode?
  rw [if_neg some, h]
  cases v with
  | object members => exact absurd ⟨members, rfl⟩ other
  | _ => exact ⟨rfl, rfl⟩

/-- What an error says has its code, and a regular body says something. An irregular one fails to be
read, but not as a service does. -/
theorem errorReply_cases (r : Response) :
    (∃ reply, r.errorReply = .ok reply ∧ reply.code = r.errorCode) ∨
      ¬ r.Regular ∧ r.errorCode = .int r.status ∧
        ∃ f, r.errorReply = .error f ∧ f.isService = false := by
  -- no body, a body that is no document, and a document that is an object or is none
  by_cases none : r.body = ""
  · left
    refine ⟨.ofStatus "response body is null" r.status, ?_, ?_⟩
    · unfold errorReply
      rw [if_pos none]
      rfl
    · exact (errorCode_of_error (document_of_empty none)).symm
  cases hdocument : r.document with
  | error f =>
    have code := errorCode_of_error hdocument
    have reply : r.errorReply =
        if f.isInvalid then .ok (.ofStatus r.body r.status) else .error f := by
      unfold errorReply
      rw [if_neg none, hdocument]
      rfl
    by_cases invalid : f.isInvalid = true
    · rw [if_pos invalid] at reply
      exact .inl ⟨_, reply, code.symm⟩
    · rw [if_neg invalid] at reply
      refine .inr ⟨?_, code, f, reply, isService_of_document hdocument⟩
      rwa [regular_iff_of_error hdocument none]
  | ok v =>
    by_cases object : ∃ members, v = .object members
    · obtain ⟨members, rfl⟩ := object
      exact .inl (errorReply_of_object hdocument)
    · obtain ⟨reply, code⟩ := errorReply_of_ok hdocument object
      refine .inr ⟨?_, code, .noMember, reply, rfl⟩
      rwa [regular_iff_of_ok hdocument]

/-- An error says that there is no such resource exactly if its code is 404: the five codes with a
sort of their own exclude each other. -/
theorem isNoSuchResource_ofReply (e : ErrorReply) (requestId : String) :
    ServiceClient.isNoSuchResource (.service (.ofReply e requestId)) = (e.code == .int 404) := by
  -- a code that equals one number equals no other one, also if it is written as 404.0
  have apart {m n : Int} (hm : (e.code == .int m) = true) (hmn : m ≠ n) :
      (e.code == .int n) = false := by
    refine (Bool.not_eq_true _).mp fun hn => hmn ?_
    have same : (Json.int m == .int n) = true := BEq.trans (BEq.symm hm) hn
    rwa [Json.int_beq_int, decide_eq_true_eq] at same
  -- a code is one of those that have their own sort of error, or another one
  unfold ServiceError.ofReply
  generalize (if requestId = "unknown" then e.message.shown
    else e.message.shown ++ " requestId:" ++ requestId) = message
  dsimp only
  split
  · next h => exact (apart h (by decide)).symm
  split
  · next h => exact (apart h (by decide)).symm
  split
  · next h => exact (apart h (by decide)).symm
  split
  · next h => exact h.symm
  · next h =>
    have other := (Bool.not_eq_true _).mp h
    rw [other]
    split
    · rfl
    · split <;> rfl

/-- A failure that is not one of a service says nothing about resources. -/
theorem isNoSuchResource_of_isService {f : Failure} (h : f.isService = false) :
    ServiceClient.isNoSuchResource f = false := by
  cases f with
  | service e => cases h
  | _ => rfl

theorem isService_of_isFormal {f : Failure} (h : f.isFormal = true) : f.isService = false := by
  cases f <;> first | rfl | cases h

/-- A response that is no error tells of the resource or fails; the resource is not missing. Only
errors have codes. -/
theorem isNoSuchResource_of_isOk {read : Json → Result α} (hread : ∀ v, (read v).Formal)
    (ok : r.isOk = true) {f : Failure} (h : r.value read = .error f) :
    ServiceClient.isNoSuchResource f = false := by
  unfold value at h
  rw [ok] at h
  by_cases none : r.body = ""
  · rw [if_neg (by decide), if_pos none] at h
    cases h
    rfl
  · rw [if_neg (by decide), if_neg none] at h
    rcases Result.bind_eq_error.mp h with h | ⟨v, -, h⟩
    · exact isNoSuchResource_of_isService (isService_of_document h)
    · exact isNoSuchResource_of_isService (isService_of_isFormal (hread v f h))

/-- A failure is heard as the absence of the resource exactly if it says that there is no such
resource. -/
theorem heard_of_error {read : Json → Result α} {f : Failure} (h : r.value read = .error f) :
    r.heard read = .ok none ↔ ServiceClient.isNoSuchResource f = true := by
  unfold heard
  rw [h]
  cases hf : ServiceClient.isNoSuchResource f <;> simp [hf]

/-- There is no such resource exactly if the code of the response says so. An irregular body of
status 404 is excluded, as it is not told apart from a broken answer. -/
theorem heard_eq_none_iff {read : Json → Result α} (hread : ∀ v, (read v).Formal)
    (regular : r.status = 404 → r.Regular) : r.heard read = .ok none ↔ r.isMissing = true := by
  unfold isMissing
  cases ok : r.isOk with
  | true =>
    cases hvalue : r.value read with
    | ok a =>
      unfold heard
      rw [hvalue]
      simp
    | error f =>
      rw [heard_of_error hvalue, isNoSuchResource_of_isOk hread ok hvalue]
      simp
  | false =>
    have failed : r.value read =
        r.errorReply >>= fun reply => .error (.service (.ofReply reply r.requestId)) := by
      unfold value
      rw [ok]
      cases r.errorReply <;> rfl
    rw [Bool.not_false, Bool.true_and]
    -- either the error has its code, or the body is none that an error may have
    rcases errorReply_cases r with ⟨reply, hreply, code⟩ | ⟨irregular, code, f, hreply, own⟩
    · rw [hreply] at failed
      rw [heard_of_error failed, isNoSuchResource_ofReply, code]
    · rw [hreply] at failed
      rw [heard_of_error failed, isNoSuchResource_of_isService own, code]
      refine ⟨nofun, fun h => ?_⟩
      rw [Json.int_beq_int, decide_eq_true_eq] at h
      exact absurd (regular h) irregular

/-- What a response tells is never a refusal of planning. Those are made from it afterwards. -/
theorem heard_ne_refused {read : Json → Result α} (why : Refusal) :
    r.heard read ≠ .error (.refused why) := by
  unfold heard
  cases r.value read with
  | ok a => exact nofun
  | error f =>
    dsimp only
    split
    · exact nofun
    · -- only a failure of the service is reported, and no refusal is one
      cases hf : f.isService with
      | false => exact nofun
      | true =>
        rw [if_pos rfl]
        rintro same
        cases same
        cases hf

/-- A resource that is not missing is no reason to say that a table does not exist, whatever is made
of what it is heard as. -/
theorem heardOr_ne_refused {β : Type} {read : Json → Result α} {make : α → Result β}
    (there : r.heard read ≠ .ok none) (hmake : ∀ a, (make a).Formal) (missing : Failure)
    (why : Refusal) : r.heardOr missing read make ≠ .error (.refused why) := by
  unfold heardOr
  cases hheard : r.heard read with
  | error f =>
    intro same
    cases same
    exact heard_ne_refused why hheard
  | ok found =>
    cases found with
    | none => exact absurd hheard there
    | some a =>
      intro same
      cases hmake a _ same

end Response

/-! ## The four questions -/

namespace ServiceClient

variable {c : ServiceClient} {line : Line} {r : Response} {rest : List Answer} {name id : String}

/-- A table is missing, for each of the four questions, if the response is an error with the code
404; otherwise it is so for none of them. Without a code in the body this is the status. Nothing is
said of a status of 404 with a body that is a document and no object. -/
theorem catalog_of_response (pending : line.pending = .response r :: rest)
    (wholeName : Text.isWhole name = true) (wholeId : Text.isWhole id = true)
    (regular : r.status = 404 → r.Regular) (notes : List Note) :
    (if r.isMissing then
      (outcome (c.catalog.tableId (.text name)) ⟨line, notes⟩).1 =
          .error (.unknownTable (.text name)) ∧
        (outcome (c.catalog.tableExists (.text id)) ⟨line, notes⟩).1 = .ok false ∧
        (outcome (c.catalog.tableState (.text id)) ⟨line, notes⟩).1 =
          .error (.unknownTableId (.text id)) ∧
        (outcome (c.catalog.tablets (.text id)) ⟨line, notes⟩).1 =
          .error (.unknownTableId (.text id))
    else ∀ table,
      (outcome (c.catalog.tableId (.text name)) ⟨line, notes⟩).1 ≠
          .error (.refused (.tableNotExist table)) ∧
        (outcome (c.catalog.tableExists (.text id)) ⟨line, notes⟩).1 ≠ .ok false ∧
        (outcome (c.catalog.tableState (.text id)) ⟨line, notes⟩).1 ≠
          .error (.refused (.tableNotExist table)) ∧
        (outcome (c.catalog.tablets (.text id)) ⟨line, notes⟩).1 ≠
          .error (.refused (.tableNotExist table))) ∧
    (r.statedCode? = none → r.isMissing = decide (r.status = 404)) := by
  rw [outcome_tableId pending wholeName, outcome_tableExists pending wholeId,
    outcome_tableState pending wholeId, outcome_tablets pending wholeId]
  refine ⟨?_, Response.isMissing_of_statedCode?_eq_none⟩
  -- a missing table shows in what the reply is heard as, which all four calls begin with
  have table := Response.heard_eq_none_iff TableReply.formal_ofJson regular
  have tablets := Response.heard_eq_none_iff TabletsReply.formal_ofJson regular
  cases missing : r.isMissing with
  | true =>
    have noTable := table.mpr missing
    have noTablets := tablets.mpr missing
    unfold Response.tableId Response.tableExists Response.tableState Response.tablets
      Response.heardOr
    rw [noTable, noTablets, if_pos rfl]
    exact ⟨rfl, rfl, rfl, rfl⟩
  | false =>
    -- something is heard of the table, even if it is a failure
    have there : r.heard TableReply.ofJson ≠ .ok none := fun none => by
      rw [table.mp none] at missing
      cases missing
    have listed : r.heard TabletsReply.ofJson ≠ .ok none := fun none => by
      rw [tablets.mp none] at missing
      cases missing
    rw [if_neg Bool.false_ne_true]
    intro unknown
    refine ⟨Response.heardOr_ne_refused there (fun _ => formal_ok _) _ _, ?_,
      Response.heardOr_ne_refused there formal_stateOf _ _,
      Response.heardOr_ne_refused listed formal_tabletsOf _ _⟩
    unfold Response.tableExists
    cases hheard : r.heard TableReply.ofJson with
    | error f => exact nofun
    | ok found =>
      cases found with
      | none => exact absurd hheard there
      | some table => exact nofun

/-- A status of 404 may come with another code, and another status with the code 404. -/
theorem missing_against_status :
    (outcome ((⟨"http://meta", .none⟩ : ServiceClient).catalog.tableExists (.text "1"))
      ⟨⟨[.response ⟨404, "\x7b\"code\": 500\x7d", []⟩], [], []⟩, []⟩).1 ≠ .ok false ∧
    (outcome ((⟨"http://meta", .none⟩ : ServiceClient).catalog.tableExists (.text "1"))
      ⟨⟨[.response ⟨503, "\x7b\"code\": 404\x7d", []⟩], [], []⟩, []⟩).1 = .ok false := by
  decide +kernel

/-- One response for each kind of body: none, one that is no document, and two objects whose own
code is another than the status. The first two leave it to the status; of the others the one with
status 503 says that the table is missing, and the one with status 404 does not. -/
theorem catalog_of_response_bodies :
    (outcome ((⟨"http://meta", .none⟩ : ServiceClient).catalog.tableId (.text "t"))
      ⟨⟨[.response ⟨404, "", []⟩], [], []⟩, []⟩).1 = .error (.unknownTable (.text "t")) ∧
    (outcome ((⟨"http://meta", .none⟩ : ServiceClient).catalog.tableState (.text "1"))
      ⟨⟨[.response ⟨404, "Not Found", []⟩], [], []⟩, []⟩).1 = .error (.unknownTableId (.text "1")) ∧
    (outcome ((⟨"http://meta", .none⟩ : ServiceClient).catalog.tablets (.text "1"))
      ⟨⟨[.response ⟨503, "\x7b\"code\": 404\x7d", []⟩], [], []⟩, []⟩).1 =
        .error (.unknownTableId (.text "1")) ∧
    (outcome ((⟨"http://meta", .none⟩ : ServiceClient).catalog.tableExists (.text "1"))
      ⟨⟨[.response ⟨404, "\x7b\"code\": 500\x7d", []⟩], [], []⟩, []⟩).1 ≠ .ok false := by
  have pending (r : Response) : (⟨[.response r], [], []⟩ : Line).pending = .response r :: [] := rfl
  have wholeName : Text.isWhole "t" = true := by decide
  have wholeId : Text.isWhole "1" = true := by decide
  have plain : (⟨404, "Not Found", []⟩ : Response).Regular :=
    .inr (.inl ⟨.noDocument, rfl, rfl⟩)
  have ownCode : (⟨404, "\x7b\"code\": 500\x7d", []⟩ : Response).Regular :=
    .inr (.inr ⟨[("code", .int 500)], rfl⟩)
  have catalog (r : Response) (regular : r.status = 404 → r.Regular) :=
    (catalog_of_response (c := ⟨"http://meta", .none⟩) (pending r) wholeName wholeId regular []).1
  refine ⟨?_, ?_, ?_, ?_⟩
  · have missing := catalog ⟨404, "", []⟩ fun _ => .inl rfl
    rw [if_pos (by decide)] at missing
    exact missing.1
  · have missing := catalog ⟨404, "Not Found", []⟩ fun _ => plain
    rw [if_pos (by decide +kernel)] at missing
    exact missing.2.2.1
  · have missing := catalog ⟨503, "\x7b\"code\": 404\x7d", []⟩ nofun
    rw [if_pos (by decide +kernel)] at missing
    exact missing.2.2.2
  · have there := catalog ⟨404, "\x7b\"code\": 500\x7d", []⟩ fun _ => ownCode
    rw [if_neg (by decide +kernel)] at there
    exact (there "t").2.1

end ServiceClient

end ScanPlanner
