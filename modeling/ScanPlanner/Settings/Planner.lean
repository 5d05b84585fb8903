import ScanPlanner.Settings.Basic

/-!
# The settings of the planner

All settings that planning knows, and how the ones that need more than a conversion are read: the
level of the log is given by its name, and the size of the host book must not be less than one.
-/

namespace ScanPlanner

namespace Setting

/-- Whether ranges are merged and divided where tablets end. -/
def adjust : Setting where
  key := "scan.auto-adjust-ranges"
  kind := .flag
  fallback := .plain (.bool true)
  description := "Merge overlapping ranges and divide them along tablet boundaries, " ++
    "producing one split per tablet-range pair."

/-- Whether the scan is a batch. -/
def batch : Setting where
  key := "scan.batch"
  kind := .flag
  fallback := .plain (.bool false)
  description := "Group all ranges of a tablet into a single batched split. " ++
    "Requires auto-adjusted ranges and is not available for offline, " ++
    "isolated or local-iterator scans."

/-- What the ranges of one batch have in common. -/
def grouping : Setting where
  key := "scan.batch.group-by"
  kind := .choice .grouping
  fallback := .choice (.grouping .extent)
  description := "Unit a batched split covers: 'extent' emits one split per tablet, " ++
    "'node' one split per hosting node."

/-- Whether the scan reads the files of an offline table. -/
def offline : Setting where
  key := "scan.offline"
  kind := .flag
  fallback := .plain (.bool false)
  description := "Read the persisted files of an offline table directly."

/-- Whether the scan returns whole rows only. -/
def isolated : Setting where
  key := "scan.isolated"
  kind := .flag
  fallback := .plain (.bool false)
  description := "Only return whole rows to the reader."

/-- Whether the iterators run beside the reader. -/
def localIterators : Setting where
  key := "scan.local-iterators"
  kind := .flag
  fallback := .plain (.bool false)
  description := "Run the configured iterators on the reader instead of the storage node."

/-- The least length of a pause. -/
def backoffLeast : Setting where
  key := "scan.retry.backoff-min"
  kind := .integer
  fallback := .plain (.int 100)
  description := "Minimum pause in milliseconds before locating tablets again."

/-- The bound of the random part of a pause. -/
def backoffJitter : Setting where
  key := "scan.retry.backoff-jitter"
  kind := .integer
  fallback := .plain (.int 100)
  description := "Upper bound (exclusive) of the random milliseconds added to each pause."

/-- The level of the log while planning. -/
def logLevel : Setting where
  key := "planner.log-level"
  kind := .text
  fallback := .none
  description := "Level applied to the planner loggers while planning, e.g. DEBUG."

/-- The size of the host book. -/
def hostBookSize : Setting where
  key := "planner.host-cache.size"
  kind := .integer
  fallback := .plain (.int 2147483647)
  description := "Maximum number of canonical host names kept during one planning pass."

/-- The address of the metadata service. -/
def serviceUri : Setting where
  key := "metadata.uri"
  kind := .text
  fallback := .none
  description := "URI of the metadata service backing a live backend."

/-- How often a request to the metadata service is tried again. -/
def serviceRetries : Setting where
  key := "metadata.http.max-retries"
  kind := .integer
  fallback := .plain (.int 3)
  description := "Retries of idempotent HTTP calls to the metadata service."

/-- All settings, in their order. -/
def all : List Setting := [
  adjust, batch, grouping, offline, isolated, localIterators, backoffLeast, backoffJitter,
  logLevel, hostBookSize, serviceUri, serviceRetries]

end Setting

/-- The levels of the log by name. -/
def logLevels : List (String × Int) := [
  ("CRITICAL", 50), ("FATAL", 50), ("ERROR", 40), ("WARN", 30), ("WARNING", 30), ("INFO", 20),
  ("DEBUG", 10), ("NOTSET", 0)]

namespace Settings

/-- The level of the log, if one is set. -/
def logLevel (given : Settings) (preferred : Value) : Result (Option Int) := do
  let level ← given.value .logLevel preferred
  if !level.isSome then return none
  match level.text? with
  | none => throw .noMember
  | some name => match logLevels.lookup (Text.upper (Text.strip name)) with
    | some rank => return some rank
    | none => throw (.refused (.logLevel Setting.logLevel.key level.quoted))

/-- A value that is a number, as a whole number. -/
def wholeOf : Value → Result Int
  | .plain (.int n) => .ok n
  | .plain (.bool b) => .ok (if b then 1 else 0)
  | .plain (.real x) => (Json.real x).toInteger
  | _ => .error .unlike

/-- The size of the host book, as it is given and as a whole number. -/
def hostBookSize (given : Settings) (preferred : Value) : Result (Value × Int) := do
  let value ← given.value .hostBookSize preferred
  let size ← wholeOf value
  if size < 1 then throw (.refused (.hostCacheSize Setting.hostBookSize.key size))
  return (value, size)

/-- The grouping of batches. -/
def grouping (given : Settings) : Result Grouping := do
  match ← given.value .grouping .none with
  | .choice (.grouping g) => return g
  | _ => throw .unlike

end Settings

end ScanPlanner
