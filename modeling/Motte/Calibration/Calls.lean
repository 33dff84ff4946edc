import Mathlib.Data.List.Sort
import Mathlib.Data.String.Basic
import Mathlib.Data.Rat.Defs
import Mathlib.Algebra.Order.Field.Rat
import Mathlib.Algebra.Order.Field.Basic
import Motte.Foundation.Grouping

/-! The calls of a calibration, and how stable they show the judge to be.

Scoring a sample again counts as stable when all its calls look alike; presenting a pair
the other way round counts as consistent when two real calls name the same winner. The
first of the two never asks whether a call was answered. -/
namespace Motte.Calibration
open Foundation

/-- `CALL_KINDS` -/
inductive CallKind where
  | single
  | repeated
  | orderForward
  | orderReverse
deriving DecidableEq

inductive CallOutcome where
  | succeeded
  | failed
  | indeterminate
deriving DecidableEq

inductive CallStatus where
  | ok
  | refused
  | malformed
  | missingEvidence
  | forgedEvidence
  | missingCriterion
deriving DecidableEq

/-- `CalibrationCall` -/
structure CalibrationCall where
  callId : String
  sampleId : String
  kind : CallKind
  judgeJobId : String
  invocationId : String
  outcome : CallOutcome
  status : Option CallStatus := none
  criteria : Table String Bool := ∅
  presentationOrder : List String := []
  winnerCandidateId : Option String := none
deriving DecidableEq

/-- `_rate` -/
def rate (numerator denominator : Nat) : Option ℚ := if denominator = 0 then none else some (numerator / denominator)

/-! ### Scoring again -/

/-- A call that scores its sample by itself. -/
def CalibrationCall.scores (c : CalibrationCall) : Bool := c.kind = .single || c.kind = .repeated

/-- The criteria, sorted by their names. -/
def sortedCriteria (criteria : Table String Bool) : List (String × Bool) :=
  criteria.rows.insertionSort (fun a b => a.1 ≤ b.1)

/-- What is compared of a call. -/
def CalibrationCall.signature (c : CalibrationCall) : Option CallStatus × List (String × Bool) :=
  (c.status, sortedCriteria c.criteria)

/-- All calls have one signature. -/
def isStable (items : List CalibrationCall) : Bool :=
  items.all (fun a => items.all (fun b => a.signature = b.signature))

structure RepeatStability where
  measured : Bool
  samples : Nat
  stable : Nat
  rate : Option ℚ
  unstableSamples : List String := []
deriving DecidableEq

/-- The scoring calls of each sample that was scored more than once. -/
def repeats (calls : List CalibrationCall) : List (String × List CalibrationCall) :=
  (groupBy (·.sampleId) (calls.filter (·.scores))).rows.filter (fun row => 2 ≤ row.2.length)

/-- `_repeat_stability` -/
def repeatStability (calls : List CalibrationCall) : RepeatStability :=
  let multi := repeats calls
  if multi = [] then { measured := false, samples := 0, stable := 0, rate := none }
  else {
    measured := true
    samples := multi.length
    stable := (multi.filter (fun row => isStable row.2)).length
    rate := rate (multi.filter (fun row => isStable row.2)).length multi.length
    unstableSamples := ((multi.filter (fun row => !isStable row.2)).map Prod.fst).insertionSort (· ≤ ·) }

/-! ### Presenting the other way round -/

/-- A call of a pair in one of its orders. -/
def CalibrationCall.swaps (c : CalibrationCall) : Bool := c.kind = .orderForward || c.kind = .orderReverse

/-- What is found of the calls of a pair. -/
inductive SwapVerdict where
  | consistent
  | inconsistent
  | invalid (reason : String)
deriving DecidableEq

/-- The call has its ledger references for itself among these calls. -/
def CalibrationCall.ownReferences (calls : List CalibrationCall) (c : CalibrationCall) : Bool :=
  calls.countP (·.invocationId = c.invocationId) = 1 &&
    calls.countP (fun c' => c'.judgeJobId = c.judgeJobId && c'.callId = c.callId) = 1

/-- Two candidates in one order and in the other. -/
def reversesPair (first second : CalibrationCall) : Bool :=
  first.presentationOrder.length = 2 && first.presentationOrder.dedup.length = 2 &&
    first.presentationOrder.all (· ≠ "") && second.presentationOrder = first.presentationOrder.reverse

def CalibrationCall.answered (c : CalibrationCall) : Bool := c.outcome = .succeeded && c.status = some .ok

def winsWithin (order : List String) (c : CalibrationCall) : Bool := c.winnerCandidateId.any (· ∈ order)

/-- The verdict on the calls of a sample. -/
def swapVerdict (calls items : List CalibrationCall) : SwapVerdict :=
  match items.filter (·.kind = .orderForward), items.filter (·.kind = .orderReverse) with
  | [first], [second] =>
    if !items.all (·.ownReferences calls) then .invalid "swap calls must have distinct, unreused ledger references"
    else if !items.all (·.answered) then .invalid "swap calls must both succeed with valid judge outcomes"
    else if !reversesPair first second then .invalid "presentation orders must reverse the same two candidates"
    else if !items.all (winsWithin first.presentationOrder) then
      .invalid "swap winners must belong to the presented candidate pair"
    else if first.winnerCandidateId = second.winnerCandidateId then .consistent
    else .inconsistent
  | _, _ => .invalid "requires exactly one forward and one reverse call"

structure PositionSwap where
  measured : Bool
  pairs : Nat
  consistent : Nat
  rate : Option ℚ
  inconsistentSamples : List String := []
  invalidSamples : List String := []
  invalidReasons : List (String × String) := []
deriving DecidableEq

def SwapVerdict.reason? : SwapVerdict → Option String
  | .invalid reason => some reason
  | _ => none

/-- The groups of swapped calls. -/
def swapGroups (calls : List CalibrationCall) : Table String (List CalibrationCall) :=
  groupBy (·.sampleId) (calls.filter (·.swaps))

/-- `_position_swap` -/
def positionSwap (calls : List CalibrationCall) : PositionSwap :=
  let groups := (swapGroups calls).rows
  if groups = [] then { measured := false, pairs := 0, consistent := 0, rate := none }
  else
    let sorted := groups.insertionSort (fun a b => a.1 ≤ b.1)
    let consistent := groups.filter (fun row => swapVerdict calls row.2 = .consistent)
    let invalid := sorted.filterMap (fun row => (swapVerdict calls row.2).reason?.map (fun reason => (row.1, reason)))
    { measured := invalid.length < groups.length
      pairs := groups.length
      consistent := consistent.length
      rate := rate consistent.length groups.length
      inconsistentSamples := (sorted.filter (fun row => swapVerdict calls row.2 ≠ .consistent)).map Prod.fst
      invalidSamples := invalid.map Prod.fst
      invalidReasons := invalid }

/-! ### What is counted -/

/-- The scoring calls of a sample. -/
def scoringsOf (calls : List CalibrationCall) (sample : String) : List CalibrationCall :=
  ofKey (·.sampleId) (calls.filter (·.scores)) sample

/-- The swapped calls of a sample. -/
def swapsOf (calls : List CalibrationCall) (sample : String) : List CalibrationCall :=
  ofKey (·.sampleId) (calls.filter (·.swaps)) sample

def scoredSamples (calls : List CalibrationCall) : Finset String :=
  ((calls.filter (·.scores)).map (·.sampleId)).toFinset

def swappedSamples (calls : List CalibrationCall) : Finset String :=
  ((calls.filter (·.swaps)).map (·.sampleId)).toFinset

/-- The samples that were scored more than once. -/
def repeatedSamples (calls : List CalibrationCall) : Finset String :=
  (scoredSamples calls).filter (fun s => 2 ≤ (scoringsOf calls s).length)

/-- Those of them whose calls all look alike. -/
def stableSamples (calls : List CalibrationCall) : Finset String :=
  (repeatedSamples calls).filter (fun s => isStable (scoringsOf calls s) = true)

/-- The pairs that are consistent. -/
def consistentSamples (calls : List CalibrationCall) : Finset String :=
  (swappedSamples calls).filter (fun s => swapVerdict calls (swapsOf calls s) = .consistent)

section
variable {calls other : List CalibrationCall}

theorem repeats_length (calls : List CalibrationCall) : (repeats calls).length = (repeatedSamples calls).card :=
  (count_groupBy (fun _ group => 2 ≤ group.length)).trans (by
    unfold repeatedSamples
    congr 1
    exact Finset.filter_congr (fun s _ => decide_eq_true_iff))

theorem stable_length (calls : List CalibrationCall) :
    ((repeats calls).filter (fun row => isStable row.2)).length = (stableSamples calls).card := by
  unfold repeats
  rw [List.filter_filter]
  refine (count_groupBy (fun _ group => isStable group && decide (2 ≤ group.length))).trans ?_
  unfold stableSamples repeatedSamples
  rw [Finset.filter_filter]
  congr 1
  refine Finset.filter_congr (fun s _ => ?_)
  rw [Bool.and_eq_true, decide_eq_true_iff, and_comm]
  rfl

theorem repeatStability_stable (calls : List CalibrationCall) :
    (repeatStability calls).stable = (stableSamples calls).card := by
  rw [← stable_length]
  unfold repeatStability
  dsimp only
  split
  · rename_i h
    rw [h]
    rfl
  · rfl

/-- The rate, where what was not measured counts as nothing. -/
theorem repeatStability_rate (calls : List CalibrationCall) :
    (repeatStability calls).rate.getD 0 = ((stableSamples calls).card : ℚ) / (repeatedSamples calls).card := by
  rw [← stable_length, ← repeats_length]
  unfold repeatStability rate
  dsimp only
  split
  · rename_i h
    rw [h]
    simp
  · rename_i h
    rw [if_neg (fun hlength => h (List.length_eq_zero_iff.1 hlength))]
    rfl

theorem swapGroups_length (calls : List CalibrationCall) :
    (swapGroups calls).rows.length = (swappedSamples calls).card := length_groupBy

theorem consistent_length (calls : List CalibrationCall) :
    ((swapGroups calls).rows.filter (fun row => swapVerdict calls row.2 = .consistent)).length =
      (consistentSamples calls).card :=
  (count_groupBy (fun _ group => swapVerdict calls group = .consistent)).trans (by
    unfold consistentSamples
    congr 1
    exact Finset.filter_congr (fun s _ => decide_eq_true_iff))

theorem positionSwap_consistent (calls : List CalibrationCall) :
    (positionSwap calls).consistent = (consistentSamples calls).card := by
  rw [← consistent_length]
  unfold positionSwap
  dsimp only
  split
  · rename_i h
    rw [h]
    rfl
  · rfl

theorem positionSwap_rate (calls : List CalibrationCall) :
    (positionSwap calls).rate.getD 0 = ((consistentSamples calls).card : ℚ) / (swappedSamples calls).card := by
  rw [← consistent_length, ← swapGroups_length]
  unfold positionSwap rate
  dsimp only
  split
  · rename_i h
    rw [h]
    simp
  · rename_i h
    rw [if_neg (fun hlength => h (List.length_eq_zero_iff.1 hlength))]
    rfl

/-! ### The order of the calls -/

theorem isStable_iff {items : List CalibrationCall} :
    isStable items = true ↔ ∀ a ∈ items, ∀ b ∈ items, a.signature = b.signature := by
  simp [isStable]

theorem isStable_perm {items items' : List CalibrationCall} (h : items.Perm items') :
    isStable items = true ↔ isStable items' = true := by
  rw [isStable_iff, isStable_iff]
  simp only [h.mem_iff]

theorem scoringsOf_perm (h : calls.Perm other) (s : String) : (scoringsOf calls s).Perm (scoringsOf other s) :=
  ofKey_perm (h.filter _) s

theorem repeatedSamples_perm (h : calls.Perm other) : repeatedSamples calls = repeatedSamples other := by
  have hsamples : scoredSamples calls = scoredSamples other :=
    List.toFinset_eq_of_perm _ _ ((h.filter _).map _)
  unfold repeatedSamples
  rw [hsamples]
  exact Finset.filter_congr (fun s _ => by rw [(scoringsOf_perm h s).length_eq])

theorem stableSamples_perm (h : calls.Perm other) : stableSamples calls = stableSamples other := by
  unfold stableSamples
  rw [repeatedSamples_perm h]
  exact Finset.filter_congr (fun s _ => isStable_perm (scoringsOf_perm h s))

end

end Motte.Calibration
