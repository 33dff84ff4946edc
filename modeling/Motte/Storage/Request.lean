import Motte.Storage.JobStore
import Motte.Storage.Pass

/-! The requests a store serves and the replies it gives.

Every operation is atomic, by a database transaction or by the store's lock, so
the requests of any number of clients reach a store in some order, and a run of
the store is a list of requests. -/
namespace Motte.Storage

/-- `runs` -/
inductive RunCommand where
  | create (run : RunInput) (event : Option Event)
  | update (r : RunUpdateRequest)
  | transition (r : RunTransitionRequest)
  | claim (runId : String)
  | claimNextQueued
  | requeueInterrupted

/-- `attempts` -/
inductive AttemptCommand where
  | begin (r : BeginAttemptRequest)
  | dispatch (r : DispatchRequest)
  | transition (r : AttemptTransitionRequest)
  | complete (r : CompleteRequest)
  | markIndeterminate (runId : String)
  | quarantine (r : QuarantineRequest)

inductive Request where
  | run (c : RunCommand)
  | attempt (c : AttemptCommand)
  | append (r : AppendRequest)
  | job (c : JobCommand)
  | publish (r : PublishRequest)

inductive Reply where
  | run (run : Option Run)
  | requeued (runIds : List String)
  | attempt (attempt : Attempt)
  | attempts (attempts : List Attempt)
  | appended (pass : PassRecord)
  | job (reply : JobReply)
  | published (reply : PublishReply)

end Motte.Storage
