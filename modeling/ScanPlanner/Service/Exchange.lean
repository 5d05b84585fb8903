import ScanPlanner.Effect
import ScanPlanner.Json.Parser
import ScanPlanner.Service.Address
import ScanPlanner.Service.Reply
import ScanPlanner.Settings.Planner
import ScanPlanner.Text.Template

/-!
# Exchanges with the metadata service

A request is answered by a response, or it breaks off. A response with a status from 400 to 599 is
an error; its body says which, or else its status does. Any failure that is not an error answer
becomes `exchangeFailed`.

The world of an exchange is the line to the service: the answers to come, and what has been sent and
logged so far.
-/

namespace ScanPlanner

/-- A response of the service. -/
structure Response where
  status : Int
  /-- The body; the empty text stands for none. -/
  body : String
  headers : Ledger String String
deriving DecidableEq

/-- What comes back for a request. -/
inductive Answer where
  | response (r : Response)
  /-- The exchange breaks off. -/
  | broken (text : String)
deriving DecidableEq

/-- A request as it was sent. -/
structure Request where
  method : String
  url : String
  timeout : Nat
deriving DecidableEq

/-- A line to the service. -/
structure Line where
  pending : List Answer
  sent : List Request
  logged : List String

/-- A client of the service. -/
structure ServiceClient where
  uri : String
  /-- How often a request is tried again. -/
  retries : Value

namespace ServiceError

/-- The words of an error: a template filled with values, or both side by side if that fails or the
template is no text. -/
def words (template : Json) (values : List Json) : Result String :=
  let sideBySide := template.shown ++ " " ++ " ".intercalate (values.map Json.shown)
  if !template.isPresent then .ok "REST API error occurred"
  else if values.isEmpty then .ok template.shown
  else match template with
    | .text s => match Template.fill s values with
      | .ok text => .ok text
      | .error .mismatch => .ok sideBySide
      | .error .outOfRange => .error .outOfRange
    | _ => .ok sideBySide

/-- An error that the service answers with, as its code says. -/
def ofReply (e : ErrorReply) (requestId : String) : ServiceError :=
  let message :=
    if requestId = "unknown" then e.message.shown
    else e.message.shown ++ " requestId:" ++ requestId
  let isCode (n : Int) : Bool := e.code == .int n
  if isCode 400 then ⟨.badRequest, message⟩
  else if isCode 401 then ⟨.notAuthorized, "Not authorized: " ++ message⟩
  else if isCode 403 then ⟨.forbidden, "Forbidden: " ++ message⟩
  else if isCode 404 then ⟨.noSuchResource e.resourceType e.resourceName, message⟩
  else if isCode 500 then ⟨.serviceFailure, "Server error: " ++ message⟩
  else if isCode 503 then ⟨.unavailable, "Service unavailable: " ++ message⟩
  else ⟨.other, "Unable to process: " ++ message⟩

end ServiceError

namespace Response

/-- The response is no error. -/
def isOk (r : Response) : Bool := r.status < 400 || 600 ≤ r.status

/-- The id that the service gave the request. -/
def requestId (r : Response) : String := (r.headers.get? "x-request-id").getD "unknown"

/-- The body as a document. -/
def document (r : Response) : Result Json := (Json.parse r.body).mapError Failure.ofDocument

/-- What a response that is an error says. A body that is no document is a message itself. -/
def errorReply (r : Response) : Result ErrorReply := do
  if r.body = "" then return .ofStatus "response body is null" r.status
  match r.document with
  | .error f => if f.isInvalid then return .ofStatus r.body r.status else throw f
  | .ok v =>
    let reply ← ErrorReply.ofJson v
    return if reply.code = .null then { reply with code := .int r.status } else reply

/-- What a response says, if it is no error. -/
def value {α : Type} (r : Response) (read : Json → Result α) : Result α := do
  if !r.isOk then throw (.service (.ofReply (← r.errorReply) r.requestId))
  if r.body = "" then throw (.service ⟨.other, "response body is null."⟩)
  read (← r.document)

end Response

namespace ServiceClient

/-- The seconds after which a request is given up. -/
def timeout : Nat := 180

/-- The client that settings ask for. -/
def ofSettings (given : Settings) : Result ServiceClient := do
  let uri ← given.value .serviceUri .none
  if uri.toText = "" || !uri.isSome then throw (.invalid (.unsetUri Setting.serviceUri.key))
  let retries ← given.value .serviceRetries .none
  return ⟨← ServiceUri.normalize uri.toText, retries⟩

/-- Sends a request, and takes the next answer. -/
def send (url : String) : Effect Line Response := do
  let line : Line ← Effect.world
  let line : Line := {
    line with
    sent := line.sent ++ [⟨"GET", url, timeout⟩]
    logged := line.logged ++ ["Request [unknown]: GET " ++ url] }
  match line.pending with
  | [] =>
    Effect.setWorld line
    throw (Failure.raised "no response scripted")
  | .broken text :: rest =>
    Effect.setWorld { line with pending := rest }
    throw (Failure.raised text)
  | .response r :: rest =>
    let note := "Response [" ++ r.requestId ++ "]: " ++ toString r.status
    Effect.setWorld { line with pending := rest, logged := line.logged ++ [note] }
    return r

/-- Asks the service for what is at a path. -/
def get {α : Type} (c : ServiceClient) (read : Json → Result α) (path : Option String)
    (query : List (String × String)) : Effect Line α := do
  let url ← Effect.ofResult (ServiceUri.request c.uri path query)
  try
    let response ← send url
    Effect.ofResult (response.value read)
  catch f => throw (if f.isService then f else .exchangeFailed f)

end ServiceClient

end ScanPlanner
