import ScanPlanner.Failure
import ScanPlanner.Text.Blank
import ScanPlanner.Text.Percent

/-!
# Addresses of the metadata service

The address of the service itself, the addresses of requests to it, and the paths of its resources:
a table by its name, a table by its id, and the tablets of a table. A name or an id is one segment
of a path, so different names have different paths.
-/

namespace ScanPlanner

namespace ServiceUri

/-- The text without one slash at its end. -/
def dropSlash (s : String) : String := if s.endsWith "/" then (s.dropEnd 1).toString else s

/-- The address without blanks around it and without a slash at its end; HTTP is meant unless it
says otherwise. -/
def normalize (uri : String) : Result String :=
  let uri := Text.strip uri
  if uri = "" then .error (.invalid .emptyUri)
  else
    let uri := dropSlash uri
    .ok (if uri.startsWith "http://" || uri.startsWith "https://" then uri else "http://" ++ uri)

/-- The address of a request: the service, a path that is not blank, and pairs of names and values,
which are written as bytes. -/
def request (uri : String) (path : Option String) (query : List (String × String)) :
    Result String :=
  let path := path.getD ""
  let address := if Text.strip path = "" then uri else uri ++ path
  if query.isEmpty then .ok address
  else if query.all fun p => Text.isWhole p.1 && Text.isWhole p.2 then
    .ok (address ++ "?" ++ Text.formPairs query)
  else .error .halfCharacter

end ServiceUri

namespace ResourcePath

/-- The path of a table by its name. -/
def tableByName (name : String) : String := "/v1/tables/" ++ Text.percentEncode name

/-- The path of a table by its id. -/
def tableById (id : String) : String := "/v1/table-ids/" ++ Text.percentEncode id

/-- The path of the tablets of a table. -/
def tablets (id : String) : String := tableById id ++ "/tablets"

end ResourcePath

end ScanPlanner
