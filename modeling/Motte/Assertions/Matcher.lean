import Mathlib.Algebra.Order.BigOperators.Group.List
import Mathlib.Data.List.Sort
import Mathlib.Data.Nat.Basic
import Motte.Assertions.Evidence

/-! Matchers and what they match.

A matcher is tried on every item of a stream. An item that has the name, the target and
the status that it asks for gives one key, or one for each place where its text stands;
the pattern is searched for only then. At most 64 places of one item are collected. -/
namespace Motte.Assertions
open Foundation

inductive CasePolicy where
  | sensitive
  | insensitive
deriving DecidableEq

/-- A matcher. A bound that is given may be null, which an absent `min_count` is not. -/
structure Matcher where
  action : Option String := none
  tool : Option String := none
  target : Option String := none
  status : Option String := none
  text : Option String := none
  pattern : Option String := none
  minCount : Option (Option ℕ) := none
  maxCount : Option ℕ := none
  casePolicy : CasePolicy := .sensitive
deriving DecidableEq

/-- A field that is given and not empty. -/
def given (field : Option String) : Bool := field.any (· ≠ "")

/-- `_validate_matcher` -/
def Matcher.problem (m : Matcher) : Option String :=
  if !([m.action, m.tool, m.target, m.text, m.pattern].any given) then
    some "matcher requires one of action/tool/target/text/pattern"
  else match [("action", m.action), ("tool", m.tool), ("target", m.target), ("status", m.status), ("text", m.text),
      ("pattern", m.pattern)].find? (fun field => field.2 = some "") with
    | some field => some ("matcher " ++ field.1 ++ " must be a non-empty string")
    | none =>
      match m.minCount, m.maxCount with
      | some (some minimum), some maximum =>
        if maximum < minimum then some "matcher max_count must be >= min_count" else none
      | _, _ => none

/-- An item of a stream. -/
structure Item where
  order : ℕ
  step : ℕ
  name : String
  target : Value
  status : CallStatus
  text : Option String
  callId : Option String

/-- `_ORDER_SCALE` -/
def orderScale : ℕ := 1000000

/-- The most places that are collected of one item. -/
def offsetLimit : ℕ := 64

section
variable (lib : Library)

/-- `_field_matches` -/
def fieldMatches (value : Value) (expectation : Option String) (policy : CasePolicy) : Bool :=
  match expectation, value with
  | none, _ => true
  | some expected, .str text =>
    match policy with
    | .insensitive => lib.lower text = lib.lower expected
    | .sensitive => text = expected
  | some _, _ => false

/-- `str.find`, of a needle that is not empty. -/
def find (needle : List Char) : List Char → Option ℕ
  | [] => none
  | c :: rest => if needle.isPrefixOf (c :: rest) then some 0 else (find needle rest).map (· + 1)

/-- The loop of `_text_offsets`; `text` is what stands at `start` and after it. -/
def offsetsFrom (needle : List Char) : ℕ → ℕ → List Char → List ℕ
  | 0, _, _ => []
  | limit + 1, start, text =>
    match find needle text with
    | none => []
    | some offset =>
      let step := offset + max needle.length 1
      (start + offset) :: offsetsFrom needle limit (start + step) (text.drop step)

/-- A text as a case policy compares it. -/
def folded (text : String) : CasePolicy → List Char
  | .sensitive => text.toList
  | .insensitive => (lib.lower text).toList

/-- `_text_offsets` -/
def textOffsets (text needle : String) (policy : CasePolicy) : List ℕ :=
  offsetsFrom (folded lib needle policy) offsetLimit 0 (folded lib text policy)

/-- What stops a checker: `CheckerTimeout` or `CheckerFailure`. -/
inductive CheckerError where
  | timeout (text : String)
  | failure (detail : String)
deriving DecidableEq

/-- `_search_pattern` -/
def searchPattern (pattern text : String) (flags : RegexFlags) (seconds : ℚ) : Except CheckerError Bool :=
  match lib.search pattern text flags seconds with
  | .timeout => .error (.timeout ("pattern exceeded " ++ lib.seconds seconds ++ "s"))
  | .error detail => .error (.failure detail)
  | .found found => .ok found

/-- The item has the name, the target and the status that the matcher asks for. -/
def Matcher.admits (m : Matcher) (item : Item) : Bool :=
  fieldMatches lib (.str item.name) (if given m.action then m.action else m.tool) m.casePolicy &&
    fieldMatches lib item.target m.target m.casePolicy && m.status.all (fun status => item.status.text = status)

/-- The keys that one item gives. -/
def itemKeys (m : Matcher) (flags : RegexFlags) (seconds : ℚ) (item : Item) : Except CheckerError (List ℕ) :=
  if !m.admits lib item then .ok []
  else
    let text := item.text.getD ""
    let offsets := m.text.elim [] (fun needle => textOffsets lib text needle m.casePolicy)
    if m.text.isSome && offsets.isEmpty then .ok []
    else do
      let found ← m.pattern.elim (.ok true) (fun pattern => searchPattern lib pattern text flags seconds)
      return if found then
        (if offsets.isEmpty then [0] else offsets).map (fun offset => item.order * orderScale + min offset (orderScale - 1))
      else []

/-- `_matcher_keys` -/
def matcherKeys (items : List Item) (m : Matcher) (flags : RegexFlags) (seconds : ℚ) : Except CheckerError (List ℕ) := do
  return (← items.mapM (itemKeys lib m flags seconds)).flatten.insertionSort (· ≤ ·)

/-! ### Occurrences -/

/-- The places where a needle stands in a text, from the left and apart; `skip` characters belong to the last one. -/
def occurrencesFrom (needle : List Char) : ℕ → List Char → ℕ
  | _, [] => 0
  | skip + 1, _ :: rest => occurrencesFrom needle skip rest
  | 0, c :: rest =>
    if needle.isPrefixOf (c :: rest) then occurrencesFrom needle (needle.length - 1) rest + 1 else occurrencesFrom needle 0 rest

/-- How often the text of a matcher stands in the text of an item. -/
def occurrences (m : Matcher) (item : Item) : ℕ :=
  m.text.elim 1 (fun needle => occurrencesFrom (folded lib needle m.casePolicy) 0 (folded lib (item.text.getD "") m.casePolicy))

/-- The matcher finds what it asks for in the item, its text aside. -/
def Matcher.Selects (m : Matcher) (flags : RegexFlags) (seconds : ℚ) (item : Item) : Bool :=
  m.admits lib item && m.pattern.all (fun pattern => searchPattern lib pattern (item.text.getD "") flags seconds = .ok true)

/-- The number of matching occurrences in all items. -/
def matchCount (items : List Item) (m : Matcher) (flags : RegexFlags) (seconds : ℚ) : ℕ :=
  ((items.filter (m.Selects lib flags seconds)).map (occurrences lib m)).sum

/-- The same, with no more than 64 occurrences of any item. -/
def cappedCount (items : List Item) (m : Matcher) (flags : RegexFlags) (seconds : ℚ) : ℕ :=
  ((items.filter (m.Selects lib flags seconds)).map (fun item => min offsetLimit (occurrences lib m item))).sum

end

section
variable {lib : Library}

theorem occurrencesFrom_drop (needle : List Char) (skip : ℕ) (text : List Char) :
    occurrencesFrom needle skip text = occurrencesFrom needle 0 (text.drop skip) := by
  induction skip generalizing text with
  | zero => rw [List.drop_zero]
  | succ skip ih =>
    cases text with
    | nil => rfl
    | cons c rest => rw [occurrencesFrom, List.drop_succ_cons, ih]

/-- The first place, and the places after it. -/
theorem occurrencesFrom_find (needle text : List Char) : occurrencesFrom needle 0 text =
    match find needle text with
    | none => 0
    | some offset => occurrencesFrom needle 0 (text.drop (offset + max needle.length 1)) + 1 := by
  induction text with
  | nil => rfl
  | cons c rest ih =>
    rw [occurrencesFrom, find]
    by_cases h : needle.isPrefixOf (c :: rest) = true
    · rw [if_pos h, if_pos h]
      have hstep : 0 + max needle.length 1 = (needle.length - 1) + 1 := by omega
      simp only
      rw [hstep, List.drop_succ_cons, occurrencesFrom_drop]
    · rw [if_neg h, if_neg h, ih]
      cases find needle rest with
      | none => rfl
      | some offset =>
        have hstep : offset + 1 + max needle.length 1 = offset + max needle.length 1 + 1 := by omega
        simp only [Option.map_some]
        rw [hstep, List.drop_succ_cons]

/-- The loop collects the places that there are, up to its limit. -/
theorem length_offsetsFrom (needle : List Char) (limit start : ℕ) (text : List Char) :
    (offsetsFrom needle limit start text).length = min limit (occurrencesFrom needle 0 text) := by
  induction limit generalizing start text with
  | zero => rw [offsetsFrom, Nat.zero_min, List.length_nil]
  | succ limit ih =>
    rw [offsetsFrom, occurrencesFrom_find]
    cases find needle text with
    | none => rfl
    | some offset =>
      simp only
      rw [List.length_cons, ih]
      omega

theorem length_textOffsets (m : Matcher) {needle : String} (h : m.text = some needle) (item : Item) :
    (textOffsets lib (item.text.getD "") needle m.casePolicy).length = min offsetLimit (occurrences lib m item) := by
  unfold textOffsets occurrences
  rw [h, length_offsetsFrom]
  rfl

/-- An item that is selected gives a key for each of its places, up to 64, and another gives none. -/
theorem length_itemKeys {m : Matcher} {flags : RegexFlags} {seconds : ℚ} {item : Item} {keys : List ℕ}
    (h : itemKeys lib m flags seconds item = .ok keys) :
    keys.length = if m.Selects lib flags seconds item then min offsetLimit (occurrences lib m item) else 0 := by
  unfold itemKeys at h
  unfold Matcher.Selects
  by_cases hadmits : m.admits lib item = true
  · rw [hadmits, Bool.not_true, if_neg Bool.false_ne_true] at h
    rw [hadmits, Bool.true_and]
    simp only at h
    generalize hoffsets : m.text.elim [] (fun needle => textOffsets lib (item.text.getD "") needle m.casePolicy) = offsets at h
    have collected (needle : String) (htext : m.text = some needle) : offsets.length = min offsetLimit (occurrences lib m item) := by
      rw [← length_textOffsets m htext item, ← hoffsets, htext]
      rfl
    by_cases hnone : (m.text.isSome && offsets.isEmpty) = true
    · rw [if_pos hnone] at h
      cases h
      obtain ⟨hsome, hempty⟩ := Bool.and_eq_true_iff.1 hnone
      obtain ⟨needle, htext⟩ := Option.isSome_iff_exists.1 hsome
      rw [← collected needle htext, List.isEmpty_iff.1 hempty, List.length_nil, ite_self]
    · rw [if_neg hnone] at h
      have places : (if offsets.isEmpty then [0] else offsets).length = min offsetLimit (occurrences lib m item) := by
        cases htext : m.text with
        | none =>
          rw [htext] at hoffsets
          cases hoffsets
          unfold occurrences
          rw [htext]
          rfl
        | some needle =>
          rw [htext, Option.isSome_some, Bool.true_and] at hnone
          rw [if_neg hnone, collected needle htext]
      obtain ⟨found, hfound, h⟩ := except_bind_ok_iff.1 h
      have hpattern : m.pattern.all (fun pattern => searchPattern lib pattern (item.text.getD "") flags seconds = .ok true) = found := by
        cases hp : m.pattern with
        | none =>
          rw [hp] at hfound
          cases hfound
          rfl
        | some pattern =>
          rw [hp] at hfound
          rw [Option.all_some, show searchPattern lib pattern (item.text.getD "") flags seconds = .ok found from hfound]
          cases found <;> rfl
      rw [hpattern]
      cases h
      cases found with
      | false => rfl
      | true => rw [if_pos rfl, if_pos rfl, List.length_map, places]
  · rw [Bool.eq_false_iff.2 hadmits] at h
    cases h
    rw [Bool.eq_false_iff.2 hadmits, Bool.false_and, if_neg Bool.false_ne_true]
    rfl

theorem length_matcherKeys {items : List Item} {m : Matcher} {flags : RegexFlags} {seconds : ℚ} {keys : List ℕ}
    (h : matcherKeys lib items m flags seconds = .ok keys) : keys.length = cappedCount lib items m flags seconds := by
  obtain ⟨each, heach, hkeys⟩ := except_bind_ok_iff.1 h
  cases hkeys
  have hall := mapM_ok heach
  rw [List.length_insertionSort]
  clear heach h
  unfold cappedCount
  induction hall with
  | nil => rfl
  | @cons item keys items each hitem _ ih =>
    rw [List.flatten_cons, List.length_append, ih, length_itemKeys hitem, List.filter_cons]
    split <;> simp

/-- No more are counted than there are. -/
theorem cappedCount_le (items : List Item) (m : Matcher) (flags : RegexFlags) (seconds : ℚ) :
    cappedCount lib items m flags seconds ≤ matchCount lib items m flags seconds :=
  List.sum_le_sum (fun _ _ => Nat.min_le_right _ _)

end

end Motte.Assertions
