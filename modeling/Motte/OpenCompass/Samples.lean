import Mathlib.Data.List.Sort
import Motte.Foundation.Numeral
import Motte.OpenCompass.Extraction

/-! The samples of a subject.

The details of a result file are a list, or an object keyed by indices. Of an object the
answer of each sample is resolved and compared with the gold answer. Of a list the fields of
each sample are taken as they stand, so the two containers give the same only where these
fields say what resolving and comparing would. -/
namespace Motte.OpenCompass
open Foundation

structure SampleRow where
  idx : Value
  prompt : Value
  rawOutput : Value
  prediction : Value
  extraction : Option Extraction := none
  official : Value := .null
  gold : Value
  correct : Bool
deriving DecidableEq

abbrev Detail := List (String × Value)

/-- `item.get(key)` -/
def field (item : Detail) (key : String) : Value := (item.lookup key).getD .null

/-- `item.get(key, item.get(other))` -/
def fieldOr (item : Detail) (key other : String) : Value := (item.lookup key).getD (field item other)

section
variable (py : Python)

/-- `str(value).strip().upper()` -/
def normalized (v : Value) : String := py.upper (strip (py.text v))

/-- A prediction is there and is the gold answer. -/
def comparedWith (prediction gold : Value) : Bool :=
  prediction ≠ .null && normalized py prediction ≠ "" && normalized py prediction = normalized py gold

/-- `_order` -/
def orderOf (key : String) : ℤ := (readInt key).getD 0

/-- The row of a member of an object. -/
def keyedRow (idx : String) (item : Detail) : SampleRow :=
  let raw := fieldOr item "origin_prediction" "prediction"
  let gold := fieldOr item "references" "gold"
  let resolved := resolvePrediction py raw (fieldOr item "predictions" "prediction")
  { idx := .str idx
    prompt := fieldOr item "prompt" "origin_prompt"
    rawOutput := raw
    prediction := resolved.prediction
    extraction := some resolved.extraction
    official := resolved.official
    gold := gold
    correct := if gold ≠ .null then comparedWith py resolved.prediction gold else (fieldOr item "correct" "is_correct").truthy }

/-- The row of an item of a list. -/
def listedRow (idx : ℕ) (item : Detail) : SampleRow :=
  { idx := .int idx
    prompt := if (field item "origin_prompt").truthy then field item "origin_prompt" else field item "prompt"
    rawOutput := fieldOr item "origin_prediction" "prediction"
    prediction := fieldOr item "prediction" "predictions"
    gold := fieldOr item "gold" "references"
    correct := (fieldOr item "is_correct" "correct").truthy }

/-- `details[idx] or {}`, when that is an object -/
def detail? (v : Value) : Option Detail :=
  if v.truthy then
    match v with
    | .obj members => some members
    | _ => none
  else some []

/-- `_sample_rows_from_details` -/
def sampleRowsFromDetails : Value → List SampleRow
  | .obj details =>
    (details.insertionSort (fun a b => orderOf a.1 ≤ orderOf b.1)).filterMap (fun entry => (detail? entry.2).map (keyedRow py entry.1))
  | .arr items =>
    items.zipIdx.filterMap (fun entry =>
      match entry.1 with
      | .obj item => some (listedRow entry.2 item)
      | _ => none)
  | _ => []

end

/-! ### Containers -/

/-- The objects as a list. -/
def asList (items : List Detail) : Value := .arr (items.map .obj)

/-- The objects keyed by consecutive indices. -/
def asObject (items : List Detail) : Value := .obj (items.zipIdx.map (fun entry => (toString entry.2, .obj entry.1)))

/-- What is asked of a row: the prediction, the gold answer and whether it is correct. -/
def SampleRow.scored (row : SampleRow) : Value × Value × Bool := (row.prediction, row.gold, row.correct)

/-- The stated conclusion, or else what was extracted officially. -/
def twoStage (py : Python) (item : Detail) : Value :=
  match extractConclusion (py.textOrEmpty (fieldOr item "origin_prediction" "prediction")) with
  | some conclusion => .str conclusion
  | none => if (fieldOr item "predictions" "prediction").truthy then fieldOr item "predictions" "prediction" else .null

/-- The row has the prediction that is resolved, which is compared with the gold answer when there is one. -/
def TwoStage (py : Python) (item : Detail) (row : SampleRow) : Prop :=
  row.prediction = twoStage py item ∧ (row.gold ≠ .null → row.correct = comparedWith py row.prediction row.gold)

/-- Both containers give the same rows, and these are resolved in two stages. -/
structure ContainerFree (py : Python) (items : List Detail) : Prop where
  same : (sampleRowsFromDetails py (asList items)).map SampleRow.scored = (sampleRowsFromDetails py (asObject items)).map SampleRow.scored
  listed : List.Forall₂ (TwoStage py) items (sampleRowsFromDetails py (asList items))
  keyed : List.Forall₂ (TwoStage py) items (sampleRowsFromDetails py (asObject items))

/-- The fields of an object say what is resolved and compared. -/
structure Agrees (py : Python) (item : Detail) : Prop where
  prediction : fieldOr item "prediction" "predictions" = twoStage py item
  gold : ∀ reference gold, item.lookup "references" = some reference → item.lookup "gold" = some gold → reference = gold
  compared : fieldOr item "references" "gold" ≠ .null →
    (fieldOr item "is_correct" "correct").truthy = comparedWith py (twoStage py item) (fieldOr item "references" "gold")
  flag : fieldOr item "references" "gold" = .null → ∀ flag flag', item.lookup "is_correct" = some flag →
    item.lookup "correct" = some flag' → flag.truthy = flag'.truthy

/-! ### Rows of each container -/

section
variable {py : Python}

theorem detail?_obj (item : Detail) : detail? (.obj item) = some item := by
  unfold detail?
  cases item with
  | nil => rfl
  | cons member rest => rfl

theorem rows_asList (items : List Detail) :
    sampleRowsFromDetails py (asList items) = items.zipIdx.map (fun entry => listedRow entry.2 entry.1) := by
  unfold sampleRowsFromDetails asList
  simp only
  rw [List.zipIdx_map, List.filterMap_map, ← List.filterMap_eq_map]
  rfl

/-- Consecutive indices are in order as they stand. -/
theorem rows_asObject (items : List Detail) :
    sampleRowsFromDetails py (asObject items) = items.zipIdx.map (fun entry => keyedRow py (toString entry.2) entry.1) := by
  have hsorted : (items.zipIdx.map (fun entry => (toString entry.2, Value.obj entry.1))).Pairwise (fun a b => orderOf a.1 ≤ orderOf b.1) := by
    have horder (n : ℕ) : orderOf (toString n) = n := by
      unfold orderOf
      rw [readInt_toString]
      rfl
    rw [List.pairwise_map]
    simp only [horder, Nat.cast_le]
    have hindices : ((items.zipIdx.map Prod.snd).Pairwise (· ≤ ·)) := by
      rw [List.zipIdx_map_snd]
      exact List.pairwise_le_range'
    exact List.pairwise_map.1 hindices
  unfold sampleRowsFromDetails asObject
  simp only
  rw [List.Pairwise.insertionSort_eq hsorted, List.filterMap_map, ← List.filterMap_eq_map]
  refine congrArg (List.filterMap · items.zipIdx) (funext fun entry => ?_)
  simp only [Function.comp_apply, detail?_obj]
  rfl

theorem resolve_twoStage (item : Detail) :
    (resolvePrediction py (fieldOr item "origin_prediction" "prediction") (fieldOr item "predictions" "prediction")).prediction =
      twoStage py item := by
  unfold resolvePrediction twoStage
  cases extractConclusion (py.textOrEmpty (fieldOr item "origin_prediction" "prediction")) <;> rfl

/-- What an object gives is always resolved in two stages. -/
theorem keyedRow_twoStage (idx : String) (item : Detail) : TwoStage py item (keyedRow py idx item) := by
  refine ⟨resolve_twoStage item, fun hgold => ?_⟩
  unfold keyedRow at hgold ⊢
  simp only at hgold ⊢
  rw [if_pos hgold]

/-- Two fields can be asked for in either order when they agree wherever both are there. -/
theorem fieldOr_comm_iff {α : Type} (f : Value → α) (item : Detail) (key other : String) :
    f (fieldOr item key other) = f (fieldOr item other key) ↔
      ∀ v w, item.lookup key = some v → item.lookup other = some w → f v = f w := by
  unfold fieldOr field
  cases item.lookup key with
  | none => cases item.lookup other <;> simp
  | some v => cases item.lookup other <;> simp

theorem forall₂_zipIdx {α β : Type} {R : α → β → Prop} {g : α × ℕ → β} {q : α → Prop} (h : ∀ a n, R a (g (a, n)) ↔ q a) (xs : List α)
    (start : ℕ) : List.Forall₂ R xs ((xs.zipIdx start).map g) ↔ ∀ x ∈ xs, q x := by
  induction xs generalizing start with
  | nil => simp
  | cons x xs ih => rw [List.zipIdx_cons, List.map_cons, List.forall₂_cons, h, ih, List.forall_mem_cons]

theorem map_zipIdx_eq_iff {α β : Type} {f g : α × ℕ → β} {q : α → Prop} (h : ∀ a n, f (a, n) = g (a, n) ↔ q a) (xs : List α) (start : ℕ) :
    (xs.zipIdx start).map f = (xs.zipIdx start).map g ↔ ∀ x ∈ xs, q x := by
  induction xs generalizing start with
  | nil => simp
  | cons x xs ih => rw [List.zipIdx_cons, List.map_cons, List.map_cons, List.cons.injEq, h, ih, List.forall_mem_cons]

/-! ### When the container does not matter -/

/-- An item is scored alike in both containers exactly when its fields agree. -/
theorem scored_eq_iff (idx : ℕ) (key : String) (item : Detail) :
    (listedRow idx item).scored = (keyedRow py key item).scored ↔ Agrees py item := by
  have hscored : (listedRow idx item).scored = (keyedRow py key item).scored ↔
      fieldOr item "prediction" "predictions" = twoStage py item ∧ fieldOr item "gold" "references" = fieldOr item "references" "gold" ∧
        (fieldOr item "is_correct" "correct").truthy =
          if fieldOr item "references" "gold" ≠ .null then comparedWith py (twoStage py item) (fieldOr item "references" "gold")
          else (fieldOr item "correct" "is_correct").truthy := by
    unfold listedRow keyedRow SampleRow.scored
    simp only [resolve_twoStage, Prod.mk.injEq]
  rw [hscored]
  constructor
  · rintro ⟨hprediction, hgold, hcorrect⟩
    refine ⟨hprediction, (fieldOr_comm_iff id item "references" "gold").1 hgold.symm, fun hpresent => ?_, fun habsent => ?_⟩
    · rw [hcorrect, if_pos hpresent]
    · rw [if_neg (not_not.2 habsent)] at hcorrect
      exact (fieldOr_comm_iff Value.truthy item "is_correct" "correct").1 hcorrect
  · intro h
    refine ⟨h.prediction, ((fieldOr_comm_iff id item "references" "gold").2 h.gold).symm, ?_⟩
    by_cases hpresent : fieldOr item "references" "gold" ≠ .null
    · rw [if_pos hpresent]
      exact h.compared hpresent
    · rw [if_neg hpresent]
      exact (fieldOr_comm_iff Value.truthy item "is_correct" "correct").2 (h.flag (not_not.1 hpresent))

/-- The list and the object give the same samples, resolved in two stages, if and only if the fields of every sample agree. -/
theorem container_free_iff {items : List Detail} : ContainerFree py items ↔ ∀ item ∈ items, Agrees py item := by
  have hsame : (sampleRowsFromDetails py (asList items)).map SampleRow.scored = (sampleRowsFromDetails py (asObject items)).map SampleRow.scored ↔
      ∀ item ∈ items, Agrees py item := by
    rw [rows_asList, rows_asObject, List.map_map, List.map_map]
    exact map_zipIdx_eq_iff (fun item n => scored_eq_iff n (toString n) item) items 0
  constructor
  · exact fun h => hsame.1 h.same
  · intro h
    refine ⟨hsame.2 h, ?_, ?_⟩
    · rw [rows_asList]
      have hrow (item : Detail) (n : ℕ) : TwoStage py item (listedRow n item) ↔ TwoStage py item (listedRow 0 item) := Iff.rfl
      refine (forall₂_zipIdx hrow items 0).2 (fun item hitem => ?_)
      have hscored := (scored_eq_iff 0 "0" item).2 (h item hitem)
      have hkeyed := @keyedRow_twoStage py "0" item
      unfold TwoStage at hkeyed ⊢
      obtain ⟨hprediction, hgold, hcorrect⟩ : (listedRow 0 item).prediction = (keyedRow py "0" item).prediction ∧
          (listedRow 0 item).gold = (keyedRow py "0" item).gold ∧ (listedRow 0 item).correct = (keyedRow py "0" item).correct := by
        simpa only [SampleRow.scored, Prod.mk.injEq] using hscored
      rw [hprediction, hgold, hcorrect]
      exact hkeyed
    · rw [rows_asObject]
      exact (forall₂_zipIdx (q := fun _ => True) (fun item n => iff_true_intro (keyedRow_twoStage (toString n) item)) items 0).2
        (fun _ _ => trivial)

end

/-- The letters of the standard library, as far as they are needed here. -/
def plainPython : Python where
  str _ := ""
  upper text := String.ofList (text.toList.map Char.toUpper)

/-- The conclusion is the gold answer, and another letter was extracted. -/
def overriddenDetail : Detail :=
  [("origin_prediction", .str "答案：B"), ("prediction", .str "A"), ("gold", .str "B"), ("is_correct", .bool false)]

/-- A list is taken at its word. -/
theorem container_decides : ¬∀ py items, ContainerFree py items := by
  intro hall
  have h := (hall plainPython [overriddenDetail]).same
  exact absurd h (by decide +kernel)

end Motte.OpenCompass
