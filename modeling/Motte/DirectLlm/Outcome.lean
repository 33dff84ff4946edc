import Motte.DirectLlm.Scoring

/-! Which outputs break the scoring.

Every exception family of a scorer is caught, but for one: the reader of JSON text lets a
numeral that `Decimal` refuses pass through, where the numeric scorer catches it. -/
namespace Motte.DirectLlm
open Foundation

variable {s : Setup} {scorer : Scorer} {content : Option (List Char)} {parsed expected : Parsed}

/-- An error that the scoring makes an outcome of. -/
def Caught : ScorerError → Prop
  | .value _ => False
  | _ => True

theorem operated_caught {α : Type} {result : Except DecimalException α} {e : ScorerError} (h : operated result = .error e) :
    Caught e := by
  cases result with
  | ok a => cases h
  | error x =>
    cases h
    trivial

theorem compareParsed_caught {e : ScorerError} (h : compareParsed s scorer parsed expected = .error e) : Caught e := by
  unfold compareParsed at h
  split at h
  · cases h
  · cases h
  · unfold compareNumeric at h
    split at h
    · cases h
    · split at h
      · cases h
      · split at h
        · exact operated_caught h
        · cases h
      · split at h
        · exact operated_caught h
        · cases h
  · cases h
  · cases h

theorem serializeParsed_caught {e : ScorerError} (h : serializeParsed parsed = .error e) : Caught e := by
  cases parsed with
  | text t => cases h
  | json v => cases h
  | number d =>
    simp only [serializeParsed, boundedNumericText] at h
    split at h
    · cases h
      trivial
    · cases h

/-- A text that JSON cannot be read from because of a numeral that `Decimal` refuses. -/
def RefusedNumeral (s : Setup) (content : Option (List Char)) : Prop :=
  ∃ text e, content = some text ∧ loads s.unicode s.jsonLimit text = .error (.decimal e)

/-- Only a refused numeral is an error of parsing. -/
theorem parseOutput_error_iff :
    (∃ e, parseOutput s scorer content = .error e) ↔ scorer = .jsonEqual ∧ RefusedNumeral s content := by
  unfold RefusedNumeral parseOutput
  cases content with
  | none => simp
  | some text =>
    cases scorer with
    | exact _ _ => simp
    | choice _ _ => simp
    | numeric _ => simp
    | jsonEqual =>
      unfold parseJson
      cases hloads : loads s.unicode s.jsonLimit text with
      | ok v =>
        by_cases hdepth : v.within 1 = true <;> simp [hdepth, hloads, Except.map]
      | error fault => cases fault <;> simp [hloads, Except.map]

theorem judge_error_iff {base : ScoreRecord} :
    (∃ r, judge s scorer base content expected = .ok r) ↔ ¬ (scorer = .jsonEqual ∧ RefusedNumeral s content) := by
  rw [← parseOutput_error_iff]
  unfold judge
  cases hparse : parseOutput s scorer content with
  | error e => simp
  | ok result =>
    cases result with
    | error failure => simp
    | ok parsed =>
      refine iff_of_true ?_ (by simp)
      simp only [bind, Except.bind, pure, Except.pure]
      cases hcompare : compareParsed s scorer parsed expected with
      | error e =>
        have hcaught := compareParsed_caught hcompare
        cases e with
        | value message => exact hcaught.elim
        | operation code => exact ⟨_, rfl⟩
        | decimal x => exact ⟨_, rfl⟩
      | ok passed =>
        simp only
        cases hserialize : serializeParsed parsed with
        | error e =>
          have hcaught := serializeParsed_caught hserialize
          cases e with
          | value message => exact hcaught.elim
          | operation code => exact ⟨_, rfl⟩
          | decimal x => exact ⟨_, rfl⟩
        | ok serialized => exact ⟨_, rfl⟩

/-- An environment with ASCII's tables. -/
def plainSetup : Setup where
  unicode := Unicode.ascii
  casefold := fun text => text.map Char.toLower
  jsonLimit := 900
  sha := Scorer.id

def jsonSpec : ScorerSpec := { id := "json_equal", version := "1", config := ∅, configSha256 := "json_equal" }

end Motte.DirectLlm
