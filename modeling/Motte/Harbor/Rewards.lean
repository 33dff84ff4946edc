import Mathlib.Data.Finset.Dedup
import Mathlib.Data.Finset.Insert
import Motte.Foundation.Binary64
import Motte.Foundation.Table
import Motte.Foundation.Value

/-! What the verifier of a trial is seen to have said.

Only frozen bytes are read. A score comes from one of the two raw reward files; the summary
in the result document is compared with it and never stands for it. A source that is
malformed, two sources that disagree and an exception of the verifier each keep the trial
from being scored. -/
namespace Motte.Harbor
open Foundation

abbrev Bytes := List UInt8

/-- The frozen files, by their paths. -/
abbrev Files := Table String Bytes

/-- Why a text is not read as JSON. -/
inductive LoadFailure where
  | decode (msg : String) (pos : ℕ)
  | raised (name : String)
deriving DecidableEq

/-- An exception that leaves the parser. -/
structure Raised where
  name : String
deriving DecidableEq

/-- What is asked of the standard library. `str` is asked of values that are no text, and `duration`
of the seconds between two times, which are none when one is not a time. -/
structure Reading where
  decode : Bytes → Option String
  loads : String → Except LoadFailure Value
  float : String → Option Number
  str : Value → String
  repr : Value → String
  sha256 : Bytes → String
  duration : String → String → Except Raised (Option Number)

/-- An error record without details. -/
structure Fault where
  code : String
  message : String
deriving DecidableEq

abbrev Rewards := List (String × Number)

def verifierErrorExceptions : List String :=
  ["VerifierTimeoutError", "VerifierOutputParseError", "RewardFileNotFoundError", "RewardFileEmptyError"]

/-- `_EXCEPTION_PHASES` -/
def exceptionPhases : List (String × String) :=
  [("AgentTimeoutError", "agent"), ("AgentSetupTimeoutError", "agent"), ("AgentSafetyRefusalError", "agent"),
   ("AgentAuthenticationError", "agent"), ("AgentError", "agent"), ("VerifierTimeoutError", "verifier"),
   ("VerifierOutputParseError", "verifier"), ("EnvironmentStartTimeoutError", "environment"),
   ("EnvironmentBuildTimeoutError", "environment"), ("EnvironmentError", "environment")]

/-- The tolerance of every comparison of rewards. -/
def rewardTolerance : ℚ := 1 / 10 ^ 9

/-! ### Values -/

/-- `type(value).__name__` -/
def typeName : Value → String
  | .null => "NoneType"
  | .bool _ => "bool"
  | .int _ => "int"
  | .float _ => "float"
  | .str _ => "str"
  | .arr _ => "list"
  | .obj _ => "dict"

/-- `str(value)` -/
def Reading.text (r : Reading) : Value → String
  | .str s => s
  | v => r.str v

/-- `mapping.get(key)` -/
def at? (members : List (String × Value)) (key : String) : Value := (members.lookup key).getD .null

/-- The members of a mapping. -/
def members? : Value → Option (List (String × Value))
  | .obj members => some members
  | _ => none

/-- `str.strip` -/
def strip (s : String) : String :=
  String.ofList ((s.toList.dropWhile isSpace).reverse.dropWhile isSpace).reverse

/-- `repr` of a number that is not finite. -/
def reprNumber : Number → String
  | .infinite true => "-inf"
  | .infinite false => "inf"
  | _ => "nan"

def isFinite : Number → Bool
  | .finite _ => true
  | _ => false

/-! ### Sources -/

/-- `_load_json` -/
def loadJson (r : Reading) (data : Bytes) (label : String) : Except Raised (Except Fault Value) :=
  match r.decode data with
  | none => .ok (.error ⟨"EVIDENCE_NOT_UTF8", s!"{label} is not valid UTF-8"⟩)
  | some text =>
    match r.loads text with
    | .ok payload => .ok (.ok payload)
    | .error (.decode msg pos) =>
      .ok (.error ⟨"EVIDENCE_MALFORMED_JSON", s!"{label} is not valid JSON: {msg} at offset {pos}"⟩)
    | .error (.raised name) => .error ⟨name⟩

/-- The mapping that a file holds, if it holds one. -/
def loadMapping (r : Reading) (data : Option Bytes) (label : String) : Except Raised (List (String × Value)) :=
  match data with
  | none => .ok []
  | some data =>
    match loadJson r data label with
    | .error e => .error e
    | .ok (.ok (.obj members)) => .ok members
    | .ok _ => .ok []

/-- A reward, as a float. -/
def rewardOf (r : Reading) (label key : String) (value : Value) : Except Raised (Except Fault Number) :=
  match value with
  | .int n =>
    match Number.binary64 n with
    | .finite x => .ok (.ok (.finite x))
    | _ => .error ⟨"OverflowError"⟩
  | .float bits =>
    if isFinite (.ofBits bits) then .ok (.ok (.ofBits bits))
    else .ok (.error ⟨"VERIFIER_REWARD_RANGE",
      s!"{label} reward {r.repr (.str key)} must be finite, got {reprNumber (.ofBits bits)}"⟩)
  | v => .ok (.error ⟨"VERIFIER_REWARD_TYPE", s!"{label} reward {r.repr (.str key)} must be a number, got {typeName v}"⟩)

def rewardsOf (r : Reading) (label : String) : List (String × Value) → Except Raised (Except Fault Rewards)
  | [] => .ok (.ok [])
  | (key, value) :: members =>
    match rewardOf r label key value with
    | .error e => .error e
    | .ok (.error fault) => .ok (.error fault)
    | .ok (.ok x) =>
      match rewardsOf r label members with
      | .error e => .error e
      | .ok (.error fault) => .ok (.error fault)
      | .ok (.ok rewards) => .ok (.ok ((key, x) :: rewards))

/-- What is recorded of a reward document. -/
structure RewardSummary where
  source : String
  present : Option Bool
  parsed : Option Bool
  empty : Bool
  keys : Option (List String)
deriving DecidableEq

structure RewardReading where
  rewards : Option Rewards
  error : Option Fault
  summary : RewardSummary

/-- `_reward_from_json`, of a payload that was read. -/
def rewardFromPayload (r : Reading) (payload : Value) (label : String) : Except Raised RewardReading :=
  match payload with
  | .null => .ok ⟨none, some ⟨"VERIFIER_REWARD_EMPTY", s!"{label} is null rather than a reward mapping"⟩,
      ⟨label, none, some true, false, none⟩⟩
  | .obj [] => .ok ⟨none, none, ⟨label, none, some true, true, none⟩⟩
  | .obj members =>
    match rewardsOf r label members with
    | .error e => .error e
    | .ok (.error fault) => .ok ⟨none, some fault, ⟨label, none, some true, false, none⟩⟩
    | .ok (.ok rewards) => .ok ⟨some rewards, none,
        ⟨label, none, some true, false, some ((rewards.map Prod.fst).insertionSort (· ≤ ·))⟩⟩
  | v => .ok ⟨none, some ⟨"VERIFIER_REWARD_NOT_OBJECT", s!"{label} must be a key/value object, got {typeName v}"⟩,
      ⟨label, none, some true, false, none⟩⟩

/-- `_reward_from_json` -/
def rewardFromJson (r : Reading) (data : Bytes) (label : String) : Except Raised RewardReading :=
  match loadJson r data label with
  | .error e => .error e
  | .ok (.error fault) => .ok ⟨none, some fault, ⟨label, none, some false, false, none⟩⟩
  | .ok (.ok payload) => rewardFromPayload r payload label

/-- `_reward_from_text` -/
def rewardFromText (r : Reading) (data : Bytes) (label : String) : Except Fault Number :=
  match r.decode data with
  | none => .error ⟨"EVIDENCE_NOT_UTF8", s!"{label} is not valid UTF-8"⟩
  | some text =>
    if strip text = "" then .error ⟨"VERIFIER_REWARD_EMPTY", s!"{label} is empty"⟩
    else
      let shown := r.repr (.str (String.ofList ((strip text).toList.take 64)))
      match r.float (strip text) with
      | none => .error ⟨"VERIFIER_REWARD_TYPE", s!"{label} must contain a single number, got {shown}"⟩
      | some value =>
        if isFinite value then .ok value
        else .error ⟨"VERIFIER_REWARD_RANGE", s!"{label} must be finite, got {shown}"⟩

/-! ### Evidence -/

structure EvidenceRef where
  artifactId : String
  kind : String
  sha256 : String
  sizeBytes : ℕ
  complete : Bool
  truncated : Bool
  note : Option String
deriving DecidableEq

/-- `_evidence_ref` -/
def evidenceRefWith (r : Reading) (files : Files) (rel kind : String) (complete truncated : Bool) (note : Option String) :
    Option EvidenceRef :=
  (files.get rel).map (fun data =>
    { artifactId := rel, kind, sha256 := "sha256:" ++ r.sha256 data, sizeBytes := data.length, complete, truncated, note })

/-- `_evidence_ref`, of a file that is whole. -/
def evidenceRef (r : Reading) (files : Files) (rel kind : String) : Option EvidenceRef :=
  evidenceRefWith r files rel kind true false none

/-- The path of a file of a trial. -/
def trialPath (trial relative : String) : String := s!"harbor/trials/{trial}/{relative}"

/-- `_trial_file` -/
def trialFile (files : Files) (trial relative : String) : Option Bytes := files.get (trialPath trial relative)

/-! ### The observation -/

inductive Status where
  | scored
  | missingVerifierEvidence
  | verifierProtocolError
  | verifierError
deriving DecidableEq

inductive Details where
  | none
  | rawConflict (structured : Rewards) (structuredSource : String) (rewardText : Number)
  | summaryOnly (resultJsonRewards : Option Rewards)
  | summaryConflict (rawRewardFile resultJson : Rewards)
  | verifier (exceptionType : String) (rawRewards : Option Rewards) (rawRewardPresent : Bool)
  | missing (exceptionType phase : String)

structure ObservationError where
  fault : Fault
  details : Details

structure ObservationDetail where
  rewardJson : RewardSummary
  rewardTextPresent : Bool
  resultJson : String
  resultError : Option Fault
  structuredRewards : Option Rewards

structure Observation where
  status : Status
  rewards : Rewards
  evidenceRefs : List EvidenceRef
  error : Option ObservationError
  sourcePath : Option String
  sourceHash : Option String
  detail : ObservationDetail

/-- What the result document says. -/
structure ResultDocument where
  payload : List (String × Value)
  error : Option Fault

def resultDocument (r : Reading) (files : Files) (trial : String) : Except Raised ResultDocument :=
  match trialFile files trial "result.json" with
  | none => .ok ⟨[], none⟩
  | some data =>
    match loadJson r data "result.json" with
    | .error e => .error e
    | .ok (.error fault) => .ok ⟨[], some fault⟩
    | .ok (.ok (.obj members)) => .ok ⟨members, none⟩
    | .ok (.ok _) => .ok ⟨[], none⟩

/-- The type of the exception that is reported. -/
def exceptionType (r : Reading) (payload : List (String × Value)) : Option String :=
  (members? (at? payload "exception_info")).map (fun exception => r.text (at? exception "exception_type"))

/-- The summary of the rewards, if the result has one. -/
def rewardsSummary (payload : List (String × Value)) : Option Value :=
  (members? (at? payload "verifier_result")).bind (fun result => result.lookup "rewards")

/-- The summary, read as rewards. Written as JSON and read again, a mapping is itself. -/
def summaryReading (r : Reading) (payload : List (String × Value)) : Except Raised (Option Rewards × Option Fault) :=
  match rewardsSummary payload with
  | none => .ok (none, none)
  | some .null => .ok (none, none)
  | some (.obj members) =>
    match rewardFromPayload r (.obj members) "result.json#verifier_result.rewards" with
    | .error e => .error e
    | .ok reading => .ok (reading.rewards, reading.error)
  | some _ => .ok (none, some ⟨"VERIFIER_REWARD_NOT_OBJECT", "result.json verifier_result.rewards must be an object or null"⟩)

def jsonReading (r : Reading) (files : Files) (trial : String) : Except Raised RewardReading :=
  match trialFile files trial "verifier/reward.json" with
  | none => .ok ⟨none, none, ⟨"verifier/reward.json", some false, none, false, none⟩⟩
  | some data =>
    match rewardFromJson r data "verifier/reward.json" with
    | .error e => .error e
    | .ok reading => .ok { reading with summary := { reading.summary with present := some true } }

def textReading (r : Reading) (files : Files) (trial : String) : Option (Except Fault Number) :=
  (trialFile files trial "verifier/reward.txt").map (fun data => rewardFromText r data "verifier/reward.txt")

/-- `set(a) == set(b)` -/
def sameKeys (a b : Rewards) : Bool := (a.map Prod.fst).toFinset = (b.map Prod.fst).toFinset

/-- The rewards have the same keys, and at each of them they are close. -/
def agrees (a b : Rewards) : Bool :=
  sameKeys a b && a.all (fun row =>
    match b.lookup row.1 with
    | some y => Number.isClose rewardTolerance row.2 y
    | none => true)

/-- The rewards are those of the text file, under its key, as far as this is asked. -/
def agreesWithText (rewards : Rewards) (text : Number) : Bool :=
  !((rewards.map Prod.fst).toFinset = {"reward"}) ||
    match rewards.lookup "reward" with
    | some x => Number.isClose rewardTolerance x text
    | none => true

/-- `a or b`, for rewards. -/
def orRewards (a b : Option Rewards) : Option Rewards :=
  match a with
  | some (row :: rows) => some (row :: rows)
  | _ => b

def evidenceRefs (r : Reading) (files : Files) (trial : String) : List EvidenceRef :=
  [("verifier/reward.json", "harbor-reward-json"), ("verifier/reward.txt", "harbor-reward-text"),
   ("verifier/test-stdout.txt", "harbor-verifier-stdout"), ("verifier/test-stderr.txt", "harbor-verifier-stderr"),
   ("exception.txt", "harbor-exception")].filterMap (fun row => evidenceRef r files (trialPath trial row.1) row.2)

/-- Everything that was read of a trial. -/
structure Sources where
  result : ResultDocument
  resultPresent : Bool
  exception : Option String
  summary : Option Rewards
  summaryFault : Option Fault
  json : RewardReading
  jsonPresent : Bool
  text : Option (Except Fault Number)

def readSources (r : Reading) (files : Files) (trial : String) : Except Raised Sources := do
  let result ← resultDocument r files trial
  let (summary, summaryFault) ← summaryReading r result.payload
  let json ← jsonReading r files trial
  return { result, resultPresent := (trialFile files trial "result.json").isSome,
           exception := exceptionType r result.payload, summary, summaryFault, json,
           jsonPresent := (trialFile files trial "verifier/reward.json").isSome, text := textReading r files trial }

namespace Sources
variable (s : Sources)

def textReward : Option Number :=
  match s.text with
  | some (.ok x) => some x
  | _ => none

def textFault : Option Fault :=
  match s.text with
  | some (.error fault) => some fault
  | _ => none

/-- The rewards of the raw files: of the document if it has any, else of the text. -/
def rewards : Option Rewards := s.json.rewards.or (s.textReward.map (fun x => [("reward", x)]))

def rawRewardPresent : Bool := s.jsonPresent || s.text.isSome

/-- The text is compared with the document. -/
def textConflict : Option ObservationError :=
  match s.rewards, s.textReward with
  | some rewards, some text =>
    if agreesWithText rewards text then none
    else some ⟨⟨"VERIFIER_REWARD_SOURCE_CONFLICT",
        "reward.txt and the structured reward disagree; refusing to pick " ++
        "one silently (both raw files are preserved as evidence)"⟩,
      .rawConflict rewards
        (if s.json.rewards.isSome then "verifier/reward.json" else "result.json#verifier_result.rewards") text⟩
  | _, _ => none

/-- The first fault of the sources by themselves, or of the raw files against each other. -/
def fault : Option ObservationError :=
  match s.summaryFault, s.json.error, s.textFault with
  | some fault, _, _ => some ⟨fault, .none⟩
  | none, some fault, _ => some ⟨fault, .none⟩
  | none, none, some fault => some ⟨fault, .none⟩
  | none, none, none => s.textConflict

/-- The raw rewards are compared with the summary. -/
def summaryConflict : Option ObservationError :=
  match s.summary, s.rewards with
  | some summary, some rewards =>
    if agrees rewards summary then none
    else some ⟨⟨"VERIFIER_REWARD_SOURCE_CONFLICT",
        "the raw reward file and Harbor's structured summary disagree; " ++
        "refusing to choose one (both values are preserved as evidence)"⟩, .summaryConflict rewards summary⟩
  | _, _ => none

/-- The exception that is the verifier's own. -/
def verifierException : Option String := s.exception.filter (· ∈ verifierErrorExceptions)

end Sources

/-- `read_verifier_observation`, from what was read. -/
def observe (r : Reading) (files : Files) (trial : String) (s : Sources) : Observation :=
  let blank : Observation :=
    { status := .missingVerifierEvidence, rewards := [], evidenceRefs := evidenceRefs r files trial, error := none,
      sourcePath := none, sourceHash := none,
      detail :=
        { rewardJson := s.json.summary, rewardTextPresent := s.text.isSome,
          resultJson := if !s.result.payload.isEmpty then "parsed" else if s.resultPresent then "unusable" else "missing",
          resultError := s.result.error, structuredRewards := none } }
  let sourcePath := if s.json.rewards.isSome then "verifier/reward.json" else "verifier/reward.txt"
  let sourced (o : Observation) : Observation :=
    match s.rewards with
    | some (row :: rows) =>
      { o with rewards := row :: rows, sourcePath := some sourcePath,
               sourceHash := (trialFile files trial sourcePath).map (fun data => "sha256:" ++ r.sha256 data) }
    | _ => o
  match s.fault with
  | some error => { blank with status := .verifierProtocolError, error := some error }
  | none =>
    if !s.rawRewardPresent && (s.rewards.isSome || s.summary.isSome) then
      { blank with
        error := some ⟨⟨"VERIFIER_RAW_REWARD_MISSING",
          "no verifier reward file is present; the structured summary in " ++
          "result.json is recorded for audit only and is not treated as a " ++ "verified score"⟩,
          .summaryOnly (orRewards s.summary s.rewards)⟩
        detail := { blank.detail with structuredRewards := orRewards s.summary s.rewards } }
    else match s.summaryConflict with
      | some error => { blank with status := .verifierProtocolError, error := some error }
      | none =>
        match s.verifierException with
        -- The verifier's own exception comes before any score: a reward file may be left from before it.
        | some name =>
          let said := (members? (at? s.result.payload "exception_info")).elim .null (fun e => at? e "exception_message")
          sourced { blank with
            status := .verifierError
            error := some ⟨⟨name, if said.truthy then r.text said else name⟩,
              .verifier name (orRewards (orRewards s.rewards s.summary) none) s.rawRewardPresent⟩ }
        | none =>
          if (s.rewards.getD []).isEmpty then
            { blank with error := s.exception.map (fun name =>
                ⟨⟨"VERIFIER_EVIDENCE_MISSING", "verifier produced no reward evidence"⟩,
                  .missing name ((exceptionPhases.lookup name).getD "unknown")⟩) }
          else sourced { blank with status := .scored }

/-- `read_verifier_observation` -/
def readVerifierObservation (r : Reading) (files : Files) (trial : String) : Except Raised Observation := do
  return observe r files trial (← readSources r files trial)

end Motte.Harbor
