import Motte.Foundation.Json
import Motte.Foundation.Op
import Motte.Foundation.Table

/-! What every repository of the store shares: the errors it raises and the
clock readings it writes. -/
namespace Motte.Storage
open Foundation

/-- The exceptions a storage operation can raise, with their texts. A scoring job
conflict is a kind of run conflict in the source; the two are told apart here. -/
inductive Err where
  /-- `ValueError` -/
  | value (message : String)
  /-- `ScoringJobError` -/
  | scoringJob (message : String)
  /-- `ScoringJobConflict` -/
  | scoringJobConflict (message : String)
  /-- `RunConflictError` -/
  | runConflict (message : String)
  /-- `KeyError`, with the missing key -/
  | key (name : String)
  /-- `sqlite3.IntegrityError` that no handler turns into one of the others -/
  | integrity (message : String)
deriving DecidableEq, Repr

/-- A reading of the clock, as the ISO text that is stored. -/
abbrev Timestamp := String

end Motte.Storage
