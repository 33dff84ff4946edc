import Mathlib.Data.List.Dedup
import Motte.Foundation.Numeral
import Motte.Trace.Archive
import Motte.Trace.Collection

/-! The runs, events and scoring passes that a record refers to.

A walk over a record gives its edges, or fails on a malformed one. The edge from a
record to the run that owns it does not count. The edges of many records make a
reference document; resolving it follows each scoring pass to its run. -/
namespace Motte.Trace
open Foundation

/-! ### Numerals -/

def readDigits : Nat → List Char → Option Nat
  | value, [] => some value
  | value, c :: rest => (digitValue c).bind (fun d => readDigits (10 * value + d) rest)

/-- `int(locator)` of a text of digits -/
def readSeq (locator : String) : Option Nat := if locator = "" then none else readDigits 0 locator.toList

theorem readDigits_eq {digits : List Char} (h : ∀ c ∈ digits, c.isDigit) (value : Nat) :
    readDigits value digits = some (Nat.ofDigitChars 10 digits value) := by
  induction digits generalizing value with
  | nil => rfl
  | cons c rest ih =>
    rw [readDigits, digitValue_of_isDigit (h c (List.mem_cons_self ..)), Option.bind_some,
      ih (fun c hc => h c (List.mem_cons_of_mem _ hc))]
    rfl

/-- A number that is written out is read back. -/
theorem readSeq_toString (n : Nat) : readSeq (toString n) = some n := by
  have list : (toString n).toList = Nat.toDigits 10 n := Nat.toList_repr
  have nonempty : toString n ≠ "" := by
    intro h
    rw [h] at list
    exact Nat.toDigits_ne_nil list.symm
  rw [readSeq, if_neg nonempty, list, readDigits_eq (fun c hc => Nat.isDigit_of_mem_toDigits (by decide) (by decide) hc),
    Nat.ofDigitChars_ten_toDigits]

/-! ### Edges -/

/-- A `TracePassReference` -/
structure PassReference where
  passId : String
  owningRunId : Option String
  expectedRunId : Option String
deriving DecidableEq

inductive Edge where
  | run (runId : String)
  | event (runId : String) (seq : Nat)
  | pass (reference : PassReference)
deriving DecidableEq

/-- `identity`: a text that is not blank -/
def identity? (v : Value) : Option String := v.str?.filter nonBlank

/-- A member that is there and not null. -/
def present? (v : Value) (key : String) : Option Value := (v.get? key).filter (· ≠ .null)

/-- `_PASS_KEYS` -/
def passKeys : List String := ["scoring_pass_id", "source_pass_id", "previous_pass_id", "current_scoring_pass_id"]

/-- The object is taken as an evidence reference. -/
def isEvidence (v : Value) : Bool :=
  v.get? "kind" = some (.str "event") ∨
    ((v.get? "locator").isSome ∧
      (v.get? "kind" = some (.str "artifact") ∨ v.get? "kind" = some (.str "invocation") ∨ (v.get? "run_id").isSome))

-- Membership of a step in a path.
local instance lawfulSteps : LawfulBEq (List Char) := inferInstance

/-- `validate_safe_relative_path` -/
def safeRelativePath (path : String) : Bool :=
  path.toList.head? ≠ some '/' ∧ '\\' ∉ path.toList ∧ ['.', '.'] ∉ path.toList.splitOn '/'

/-- The edge of an `EvidenceRef`, which has exactly three members. -/
def evidenceEdge (v : Value) : Option Edge :=
  match v with
  | .obj members => do
    guard (members.length = 3 ∧ members.all (fun m => m.1 ∈ ["kind", "run_id", "locator"]))
    let kind ← v.textAt? "kind"
    let runId ← v.textAt? "run_id"
    let locator ← v.textAt? "locator"
    if kind = "event" then do
      let seq ← readSeq locator
      guard (1 ≤ seq)
      some (.event runId seq)
    else if kind = "artifact" then do
      guard (safeRelativePath locator)
      some (.run runId)
    else if kind = "invocation" then some (.run runId)
    else none
  | _ => none

/-- The run that a scoring pass named beside it must belong to. -/
def expectedRun (v : Value) : Option (Option String) :=
  match present? v "scoring_pass_id", present? v "run_id" with
  | some _, some runId => (identity? runId).map some
  | _, _ => some none

/-- The edge of `target_type` and `target_id`. -/
def targetEdge (v : Value) : Option (List Edge) :=
  if v.get? "target_type" = some (.str "run") then
    ((v.get? "target_id").bind identity?).map (fun id => [.run id])
  else if v.get? "target_type" = some (.str "scoring_pass") then
    ((v.get? "target_id").bind identity?).map (fun id => [.pass ⟨id, none, none⟩])
  else some []

/-- Where a walk stands: the owner of the record, whether this is the record itself or its `owner`
member, and the run expected of a scoring pass. -/
structure Place where
  owner : Option String
  top : Bool
  ownership : Bool
  expected : Option String

/-- The edges that a member has by its key; `none` leaves the member to the walk. -/
def keyedEdges (p : Place) (key : String) (child : Value) : Option (Option (List Edge)) :=
  if (key = "run_id" ∨ ends "_run_id" key) ∧ child ≠ .null then
    some ((identity? child).map fun runId =>
      if key = "run_id" ∧ (p.top ∨ p.ownership) ∧ some runId = p.owner then [] else [.run runId])
  else if (key = "run_ids" ∨ ends "_run_ids" key) ∧ child ≠ .null then
    some ((child.items?.bind (fun items => items.mapM identity?)).map (fun runIds => runIds.map .run))
  else if key ∈ passKeys ∧ child ≠ .null then
    some ((identity? child).map fun passId =>
      [.pass ⟨passId, if p.top ∧ key ∈ ["scoring_pass_id", "current_scoring_pass_id"] then p.owner else none,
        if key = "scoring_pass_id" then p.expected else none⟩])
  else none

mutual
/-- `walk` -/
def walk (owner : Option String) (top ownership : Bool) : Value → Option (List Edge)
  | .arr items => walkItems owner items
  | .obj members =>
    if isEvidence (.obj members) then (evidenceEdge (.obj members)).map (fun e => [e])
    else do
      let expected ← expectedRun (.obj members)
      let target ← targetEdge (.obj members)
      let rest ← walkMembers ⟨owner, top, ownership, expected⟩ members
      some (target ++ rest)
  | _ => some []

def walkItems (owner : Option String) : List Value → Option (List Edge)
  | [] => some []
  | child :: rest => do
    let edges ← walk owner false false child
    let others ← walkItems owner rest
    some (edges ++ others)

def walkMembers (p : Place) : List (String × Value) → Option (List Edge)
  | [] => some []
  | (key, child) :: rest => do
    let edges ← match keyedEdges p key child with
      | some edges => edges
      | none => walk p.owner false (p.top ∧ key = "owner") child
    let others ← walkMembers p rest
    some (edges ++ others)
end

/-- The edges of records with their owners. -/
def edges (records : List (Value × Option String)) : Option (List Edge) :=
  (records.mapM (fun r => walk r.2 true false r.1)).map List.flatten

/-! ### Documents -/

/-- Sorted, without repetition. -/
def ordered {α : Type} [DecidableEq α] (r : α → α → Prop) [DecidableRel r] (items : List α) : List α :=
  items.dedup.insertionSort r

@[simp] theorem mem_ordered {α : Type} [DecidableEq α] {r : α → α → Prop} [DecidableRel r] {items : List α} {x : α} :
    x ∈ ordered r items ↔ x ∈ items := by
  rw [ordered, List.mem_insertionSort, List.mem_dedup]

/-- A `TraceReferenceDocument` -/
structure ReferenceDocument where
  runIds : List String
  eventSeqs : List (String × Nat)
  passReferences : List PassReference
deriving DecidableEq

def seqLe (a b : String × Nat) : Prop := a.1 < b.1 ∨ a.1 = b.1 ∧ a.2 ≤ b.2

instance : DecidableRel seqLe := fun _ _ => inferInstanceAs (Decidable (_ ∨ _))

/-- The order of `(pass_id, owning_run_id or '', expected_run_id or '')` -/
def passLe (a b : PassReference) : Prop :=
  a.passId < b.passId ∨ a.passId = b.passId ∧
    (a.owningRunId.getD "" < b.owningRunId.getD "" ∨ a.owningRunId.getD "" = b.owningRunId.getD "" ∧
      a.expectedRunId.getD "" ≤ b.expectedRunId.getD "")

instance : DecidableRel passLe := fun _ _ => inferInstanceAs (Decidable (_ ∨ _))

/-- The model refuses blank identities. -/
def Edge.valid : Edge → Bool
  | .run runId => nonBlank runId
  | .event runId _ => nonBlank runId
  | .pass reference => nonBlank reference.passId ∧ reference.owningRunId.all nonBlank ∧ reference.expectedRunId.all nonBlank

def documentOf (es : List Edge) : ReferenceDocument where
  runIds := ordered (· ≤ ·) (es.filterMap fun
    | .run runId => some runId
    | _ => none)
  eventSeqs := ordered seqLe (es.filterMap fun
    | .event runId seq => some (runId, seq)
    | _ => none)
  passReferences := ordered passLe (es.filterMap fun
    | .pass reference => some reference
    | _ => none)

/-- `extract_reference_document` -/
def extractReferenceDocument (records : List (Value × Option String)) : Option ReferenceDocument := do
  let es ← edges records
  guard (es.all Edge.valid)
  some (documentOf es)

/-- The run of a scoring pass, as far as a reference to it adds one. -/
def resolvePass (getPass : String → Option Value) (reference : PassReference) : Option (List String) := do
  let record ← getPass reference.passId
  guard (record.get? "id" = some (.str reference.passId))
  let target ← (record.get? "run_id").bind identity?
  guard (reference.expectedRunId.all (· = target))
  some (if some target = reference.owningRunId then [] else [target])

/-- `resolve_reference_document`: the runs and the events -/
def resolveReferenceDocument (getPass : String → Option Value) (document : ReferenceDocument) :
    Option (List String × List (String × Nat)) := do
  let targets ← document.passReferences.mapM (resolvePass getPass)
  some (document.runIds ++ targets.flatten, document.eventSeqs)

end Motte.Trace
