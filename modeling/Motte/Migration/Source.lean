import Motte.Foundation.Access
import Motte.Foundation.Double

/-! A source package, as it was loaded.

A package is a list of records and the files of its artifacts. Each record has an id of
its source, the hash of its content, and the key under which its import is noted. -/
namespace Motte.Migration
open Foundation

abbrev Bytes := List UInt8

/-- `SourceRecord` -/
structure SourceRecord where
  recordType : String
  sourceId : String
  sourceVersion : String := "1"
  data : Document := ∅
  contentHash : String
  mappingKey : String
deriving DecidableEq

/-- `RejectedSourceRecord` -/
structure RejectedSourceRecord where
  recordType : String
  sourceId : String
  diagnostic : String
deriving DecidableEq

/-- What the import reads of an `ImportManifest`. -/
structure ImportManifest where
  importId : String
  sourceSystem : String
  sourceSchemaVersion : String
  transformVersion : String
  /-- `manifest_hash` -/
  manifestHash : String

/-- `LoadedSource` -/
structure LoadedSource where
  manifest : ImportManifest
  contentSha256 : String
  records : List SourceRecord := []
  rejected : List RejectedSourceRecord := []
  /-- The content of each artifact file, by the hash that its name declares. -/
  artifactFiles : Table String Bytes := ∅
  warnings : List String := []
  restricted : List String := []

/-- What the language and the store add: how values are written, contents hashed and artifact ids resolved. -/
structure Setup where
  /-- `str` -/
  str : Value → String
  str_text : ∀ s, str (.str s) = s
  /-- `hashlib.sha256` -/
  sha256 : Bytes → String
  /-- The path that an artifact id names under the root, unless it is refused. -/
  place : String → Except String String
  operator : String

/-- `unit_ref` -/
def SourceRecord.unitRef (r : SourceRecord) : String := s!"{r.recordType}/{r.sourceId}"

def RejectedSourceRecord.unitRef (r : RejectedSourceRecord) : String := s!"{r.recordType}/{r.sourceId}"

/-- `records_of` -/
def LoadedSource.recordsOf (S : LoadedSource) (recordType : String) : List SourceRecord :=
  S.records.filter (·.recordType = recordType)

/-! ### Ids and states -/

/-- `[A-Za-z0-9._-]` -/
def isIdChar (c : Char) : Bool := c.isAlphanum || c = '.' || c = '_' || c = '-'

/-- Each run of other characters becomes one dash. -/
def collapse (inRun : Bool) : List Char → List Char
  | [] => []
  | c :: rest =>
    if isIdChar c then c :: collapse false rest
    else if inRun then collapse true rest
    else '-' :: collapse true rest

def isTrimmed (c : Char) : Bool := c = '-' || c = '.'

/-- `strip("-.")` -/
def trimId (cs : List Char) : List Char := (((cs.dropWhile isTrimmed).reverse).dropWhile isTrimmed).reverse

/-- `imported_run_id` -/
def importedRunId (sourceId : String) : String :=
  let cleaned := String.ofList (trimId (collapse false sourceId.toList))
  "imp-" ++ (if cleaned = "" then "unknown" else cleaned)

/-- `IN_FLIGHT_RUN_STATUSES` -/
def inFlightRunStatuses : List String := ["queued", "pending", "running", "preparing", "collecting", "scoring"]

/-- `TERMINAL_RUN_STATUSES` -/
def terminalRunStatuses : List String := ["completed", "failed", "cancelled"]

/-- `str(v or "")` -/
def Setup.text (E : Setup) (v : Value) : String := if v.truthy then E.str v else ""

/-- A dictionary of these members. -/
def document (members : List (String × Value)) : Document := members.foldl (fun d m => d.set m.1 m.2) ∅

/-- The status that a run record gives. -/
def SourceRecord.status (E : Setup) (r : SourceRecord) : String := E.text (r.data.getOrNull "status")

/-- The run that a record names, if it names one by a text. -/
def SourceRecord.names (r : SourceRecord) (runRef : String) : Bool :=
  r.data.getOrNull "run_id" = .str runRef && runRef ≠ ""

/-- The first summary of a run. -/
def LoadedSource.summaryOf (S : LoadedSource) (runRef : String) : Option SourceRecord :=
  (S.recordsOf "run_summary").find? (·.names runRef)

/-- The baselines of a run. -/
def LoadedSource.baselinesOf (S : LoadedSource) (runRef : String) : List SourceRecord :=
  (S.recordsOf "baseline").filter (·.names runRef)

/-- The scores of a run. -/
def LoadedSource.scoresOf (S : LoadedSource) (runRef : String) : List SourceRecord :=
  (S.recordsOf "score").filter (·.names runRef)

/-- A lower-case hexadecimal digit. -/
def isHexDigit (c : Char) : Bool := ('0' ≤ c && c ≤ '9') || ('a' ≤ c && c ≤ 'f')

/-- `^[0-9a-f]{64}$`, before which a line may end. -/
def isSha256 (sha : String) : Bool :=
  let digits := if sha.toList.getLast? = some '\n' then sha.toList.dropLast else sha.toList
  digits.length = 64 && digits.all isHexDigit

/-- The hash that an artifact record declares, if it is a text. -/
def declaredSha : Value → Option String
  | .str sha => some sha
  | _ => none

/-- The hashes of the artifacts that a run record declares. -/
def SourceRecord.declaredShas (r : SourceRecord) : List String :=
  match r.data.getOrNull "artifacts" with
  | .arr entries => entries.filterMap (fun entry => if entry.isObj then declaredSha (entry.member "sha256") else none)
  | _ => []

end Motte.Migration
