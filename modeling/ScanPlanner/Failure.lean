import ScanPlanner.Json.Display
import ScanPlanner.Json.Order
import ScanPlanner.Json.Parser
import ScanPlanner.RowKey

/-!
# Failures

Everything that can go wrong, by cause. `Failure.message?` gives the words of those that have some;
the faults of a value's form (`unlike`, `noMember`, …) have none.

Planning refuses jobs and tables (`Refusal`), values can be invalid (`Invalid`), the metadata
service answers with errors (`ServiceError`), and a collaborator may fail in its own words
(`raised`). `tableFailed` and `exchangeFailed` carry the failure that caused them.
-/

namespace ScanPlanner

/-- The id of a table. Ids are texts; what a metadata service sends in the place of one is not
checked. -/
abbrev TableId := Json

/-- The name of a table. Names are texts; what a job gives in the place of one is not checked. -/
abbrev TableName := Json

/-- The address of a node. Addresses are texts; what a metadata service sends in the place of one is
not checked until the host in it is needed. -/
abbrev Address := Json

/-- Why a value is invalid. -/
inductive Invalid where
  /-- A range that holds nothing between its ends. -/
  | emptyRange (range : String)
  /-- A union of spans that is not one span. -/
  | notOneSpan (spans : String)
  /-- A range to be clipped has no part within the other one. -/
  | disjointRanges (range within : String)
  /-- The rows of an extent are not in order. -/
  | extentOrder (prev last : RowKey)
  | tableTaken (name : String)
  | splitPoints (points : List (Option RowKey))
  | locationCount (expected actual : Nat)
  | negativeBackoff
  /-- A cache without room for one entry. -/
  | noRoom
  /-- A value that is not converted; `choices` names the values that would be. -/
  | notConverted (shown target : String) (choices : Option (List String))
  | unsupportedTarget (target : String)
  | noInteger (text : String)
  | integerTooLong (digits : Nat)
  | integerOfNan
  | emptyKey
  | noKey
  | noEnumeration
  | splitRangeCount (count : Nat)
  | splitKind (kind : Json)
  | emptyUri
  | unsetUri (key : String)
  /-- A value that is none of those of an enumeration. -/
  | noChoice (shown enumeration : String)
  /-- An item of a list of pairs that is no pair. -/
  | notPair (place size : Nat)
deriving DecidableEq

/-- Why a job or a table is not planned. -/
inductive Refusal where
  | noTables
  | logLevel (key level : String)
  | hostCacheSize (key : String) (size : Int)
  /-- The modes of the table's scan have no batches. -/
  | batchUnavailable (table : String)
  /-- Batches need adjusted ranges. -/
  | batchUnadjusted (table : String)
  | tableNotExist (table : String)
  | tableDeleted (id : TableId)
  | tableOffline (id : TableId)
  | tableOnline (id : TableId)
deriving DecidableEq

/-- The sorts of error answers of the metadata service. -/
inductive ServiceErrorKind where
  | badRequest
  | notAuthorized
  | forbidden
  | noSuchResource (type name : Json)
  | serviceFailure
  | unavailable
  | other
deriving DecidableEq

/-- An error answer of the metadata service. -/
structure ServiceError where
  kind : ServiceErrorKind
  message : String
deriving DecidableEq

/-- What went wrong. -/
inductive Failure where
  /-- A value of another sort was needed, such as two keys of one sort. -/
  | unlike
  /-- A member of a value that has no members was asked for. -/
  | noMember
  /-- An index beyond the end. -/
  | noIndex
  /-- The text is no document. -/
  | noDocument
  /-- The document is nested deeper than documents are read. -/
  | tooDeep
  /-- A column of texts was given something else. -/
  | notText
  /-- A text that holds half of a character was to be written as bytes. -/
  | halfCharacter
  /-- A number beyond the range that is represented. -/
  | outOfRange
  | invalid (why : Invalid)
  /-- A member or an entry that is not there; `key` shows its name. -/
  | missing (key : String)
  /-- A collaborator failed. -/
  | raised (text : String)
  | refused (why : Refusal)
  /-- A table could not be planned. -/
  | tableFailed (table : String) (cause : Failure)
  | service (error : ServiceError)
  /-- An exchange with the metadata service broke off. -/
  | exchangeFailed (cause : Failure)
deriving DecidableEq

/-- How much of a text that is no integer is shown. -/
def Invalid.maxLiteral : Nat := 200

/-- The words for an invalid value. -/
def Invalid.message : Invalid → String
  | .emptyRange range => "Start key must be less than end key in range " ++ range
  | .notOneSpan spans => "Only non-empty atomic intervals map to a range: " ++ spans
  | .disjointRanges range within => "Range " ++ range ++ " does not overlap " ++ within
  | .extentOrder prev last =>
    "prev_end_row " ++ prev.quoted ++ " must sort before end_row " ++ last.quoted
  | .tableTaken name => "Table " ++ name ++ " already exists"
  | .splitPoints points =>
    "Split points must be sorted and distinct: [" ++
      String.intercalate ", " (points.map RowKey.quotedOrNone) ++ "]"
  | .locationCount expected actual =>
    "Expected " ++ toString expected ++ " locations, got " ++ toString actual
  | .negativeBackoff => "Backoff durations must not be negative"
  | .noRoom => "value too large"
  | .notConverted shown target choices =>
    "Cannot convert " ++ shown ++ " to " ++ target ++
      match choices with
      | some values => ". Valid values: " ++ Text.quotedList values
      | none => ""
  | .unsupportedTarget target => "Unsupported type: " ++ target
  | .noInteger text =>
    "invalid literal for int() with base 10: " ++
      String.ofList ((Text.quoted text).toList.take Invalid.maxLiteral)
  | .integerTooLong digits =>
    "Exceeds the limit (" ++ toString maxIntegerDigits ++
      " digits) for integer string conversion: value has " ++ toString digits ++
      " digits; use sys.set_int_max_str_digits() to increase the limit"
  | .integerOfNan => "cannot convert float NaN to integer"
  | .emptyKey => "Key must not be None or empty."
  | .noKey => "Key must not be null."
  | .noEnumeration => "enum_class must be a subclass of Enum"
  | .splitRangeCount count => "A range split holds exactly one range, got " ++ toString count
  | .splitKind kind => "Unknown split kind: " ++ kind.quoted
  | .emptyUri => "uri is empty which must be defined."
  | .unsetUri key => key ++ " must be set for a live backend"
  | .noChoice shown enumeration => shown ++ " is not a valid " ++ enumeration
  | .notPair place size =>
    "dictionary update sequence element #" ++ toString place ++ " has length " ++ toString size ++
      "; 2 is required"

/-- The words for a refusal. -/
def Refusal.message : Refusal → String
  | .noTables => "No table set."
  | .logLevel key level => "Unknown " ++ key ++ ": " ++ level
  | .hostCacheSize key size => key ++ " must be at least 1, got " ++ toString size
  | .batchUnavailable table =>
    "Batch scan of table " ++ table ++
      " is not available for offline scan, isolated, or local iterators"
  | .batchUnadjusted table =>
    "AutoAdjustRanges must be enabled when batch scanning table " ++ table
  | .tableNotExist table => "Table " ++ table ++ " does not exist"
  | .tableDeleted id => "Table (Id=" ++ id.shown ++ ") deleted"
  | .tableOffline id => "Table (Id=" ++ id.shown ++ ") is offline"
  | .tableOnline id =>
    "Table (Id=" ++ id.shown ++ ") is online, cannot scan table in offline mode"

namespace Failure

/-- The words for a failure, if it has some. -/
def message? : Failure → Option String
  | .invalid why => some why.message
  | .missing key => some key
  | .raised text => some text
  | .refused why => some why.message
  | .tableFailed table _ => some ("Failed to plan splits for table " ++ table)
  | .service error => some error.message
  | .exchangeFailed _ => some "rest exception"
  | _ => none

/-- The failure that caused this one. -/
def cause? : Failure → Option Failure
  | .tableFailed _ cause => some cause
  | .exchangeFailed cause => some cause
  | _ => none

/-- A failure of planning, as opposed to one of a collaborator. -/
def isPlanning : Failure → Bool
  | .refused _ => true
  | .tableFailed _ _ => true
  | _ => false

/-- A failure that the exchange with the metadata service reports. -/
def isService : Failure → Bool
  | .service _ => true
  | .exchangeFailed _ => true
  | _ => false

/-- A failure about a value, also about the text of a document. -/
def isInvalid : Failure → Bool
  | .invalid _ => true
  | .noDocument => true
  | .refused (.logLevel _ _) => true
  | .refused (.hostCacheSize _ _) => true
  | _ => false

/-- A table that is not known under its name. -/
def unknownTable (name : TableName) : Failure := .refused (.tableNotExist name.shown)

/-- A table that is not known under its id. -/
def unknownTableId (id : TableId) : Failure :=
  .refused (.tableNotExist ("(Id=" ++ id.shown ++ ")"))

/-- A text that is not read as an integer. -/
def ofInteger (text : String) : IntegerFault → Failure
  | .malformed => .invalid (.noInteger text)
  | .tooLong digits => .invalid (.integerTooLong digits)

/-- A text that is not read as a document. -/
def ofDocument : Json.Fault → Failure
  | .malformed => .noDocument
  | .tooLong digits => .invalid (.integerTooLong digits)
  | .tooDeep => .tooDeep

end Failure

/-- The value, or the failure that stands in its place. -/
abbrev Result := Except Failure

/-- Two results are equal if both are values, or both failures, and these are equal. -/
instance Except.decidableEq {ε α : Type} [DecidableEq ε] [DecidableEq α] :
    DecidableEq (Except ε α)
  | .ok a, .ok b =>
    if h : a = b then isTrue (h ▸ rfl) else isFalse fun e => h (Except.ok.inj e)
  | .error a, .error b =>
    if h : a = b then isTrue (h ▸ rfl) else isFalse fun e => h (Except.error.inj e)
  | .ok _, .error _ => isFalse nofun
  | .error _, .ok _ => isFalse nofun

end ScanPlanner
