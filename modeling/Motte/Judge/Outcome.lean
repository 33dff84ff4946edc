import Motte.Foundation.Double

/-! What a judge said of the criteria of its rubric.

A criterion is scored, or its answer has a fault; the outcome is ok, or has the fault
that stands for all of them. -/
namespace Motte.Judge
open Foundation

inductive Fault where
  | refused
  | malformed
  | missingEvidence
  | forgedEvidence
  | missingCriterion
deriving DecidableEq

inductive JudgementOutcome where
  | scored
  | failed (f : Fault)
deriving DecidableEq

inductive OutcomeStatus where
  | ok
  | failed (f : Fault)
deriving DecidableEq

/-- `JudgeCriterionJudgement` -/
structure CriterionJudgement where
  criterionId : String
  outcome : JudgementOutcome
  passed : Option Bool := none
  value : Option Double := none
  reason : String := ""
  evidence : List String := []

/-- `JudgeOutcome` -/
structure JudgeOutcome where
  status : OutcomeStatus
  judgements : List CriterionJudgement
  reason : Option String
  rejectedEvidence : List String := []
  unknownCriteria : List String := []
  injectionFlags : List String
  rawExcerpt : List Char
  responseRef : Option String

end Motte.Judge
