import Mathlib.Data.List.Infix
import Motte.Foundation.Op
import Motte.Foundation.Table
import Motte.Foundation.Value

/-! What a target is shown of a value.

Expected answers travel inside the same documents as business data. A member whose
key names one is dropped with all it holds, at every depth; what is left has no such
key, and a value that never had one is shown as it is. -/
namespace Motte.Scenario
open Foundation

/-- What `str` does with letters. -/
structure Letters where
  space : Char → Bool
  lower : List Char → List Char

/-- `HIDDEN_FIELD_MARKERS` -/
def hiddenFieldMarkers : List String :=
  ["gold", "checker", "hidden", "oracle", "answer_key", "expected", "truth", "assertion"]

/-- `HIDDEN_KEY_PREFIX` -/
def hiddenKeyPrefix : String := "_"

/-- `ScenarioToolError` -/
structure ScenarioToolError where
  code : String
  message : String
deriving DecidableEq

section
variable (u : Letters)

/-- `str.strip` -/
def Letters.strip (text : List Char) : List Char :=
  ((text.dropWhile u.space).reverse.dropWhile u.space).reverse

/-- `is_hidden_field` -/
def isHiddenField (name : String) : Bool :=
  let key := u.lower (u.strip name.toList)
  hiddenKeyPrefix.toList.isPrefixOf key || hiddenFieldMarkers.any (fun marker => marker.toList <:+: key)

mutual
/-- `project_visible_value` -/
def projectVisibleValue : Value → Value
  | .obj members => .obj (projectMembers members)
  | .arr items => .arr (projectItems items)
  | v => v

def projectItems : List Value → List Value
  | [] => []
  | item :: rest => projectVisibleValue item :: projectItems rest

def projectMembers : List (String × Value) → List (String × Value)
  | [] => []
  | (key, item) :: rest =>
    if isHiddenField u key then projectMembers rest else (key, projectVisibleValue item) :: projectMembers rest
end

mutual
/-- `hidden_field_paths` of the value at a path -/
def hiddenFieldPaths : String → Value → List String
  | path, .obj members => hiddenMemberPaths path members
  | path, .arr items => hiddenItemPaths path 0 items
  | _, _ => []

def hiddenItemPaths : String → Nat → List Value → List String
  | _, _, [] => []
  | path, index, item :: rest =>
    hiddenFieldPaths (path ++ "[" ++ toString index ++ "]") item ++ hiddenItemPaths path (index + 1) rest

def hiddenMemberPaths : String → List (String × Value) → List String
  | _, [] => []
  | path, (key, item) :: rest =>
    let inner := if path = "" then key else path ++ "." ++ key
    (if isHiddenField u key then [inner] else []) ++ hiddenFieldPaths inner item ++ hiddenMemberPaths path rest
end

/-- One key of the list that `minimal_visible_fields` goes through. -/
def visibleField (members visible : List (String × Value)) (key : String) : List (String × Value) :=
  match members.lookup key with
  | none => visible
  | some item => if isHiddenField u key then visible else Table.assign visible key (projectVisibleValue u item)

/-- `minimal_visible_fields` -/
def minimalVisibleFields (payload : Value) (allowed : Option (List String)) : Except String (List (String × Value)) :=
  match payload with
  | .obj members => return (allowed.getD (members.map Prod.fst)).foldl (visibleField u members) []
  | _ => .error "payload must be a mapping"

/-- The visible part of a result, before it is looked through again. -/
def visibleResult (reprText : String → String) (name : String) (result : Value) : Except ScenarioToolError Value :=
  match minimalVisibleFields u result none with
  | .ok projected =>
    if projected.isEmpty then
      .error ⟨"SCENARIO_TOOL_RESULT_EMPTY", "fixture tool " ++ reprText name ++ " returned no business-visible field"⟩
    else .ok (.obj projected)
  | .error _ => .ok (projectVisibleValue u result)

/-- `FixtureTools._project` -/
def projectResult (reprText : String → String) (name : String) (result : Value) : Except ScenarioToolError Value := do
  let projected ← visibleResult u reprText name result
  let leaked := hiddenFieldPaths u "" projected
  ensure leaked.isEmpty ⟨"SCENARIO_HIDDEN_VALUE_LEAK",
    "fixture tool " ++ reprText name ++ " result still carries hidden fields: " ++ ", ".intercalate leaked⟩
  return projected

/-! ### Hidden keys -/

/-- A hidden key stands somewhere in a value. -/
inductive HasHidden : Value → Prop where
  | key {members : List (String × Value)} {member : String × Value} (mem : member ∈ members)
      (hidden : isHiddenField u member.1 = true) : HasHidden (.obj members)
  | inMember {members : List (String × Value)} {member : String × Value} (mem : member ∈ members)
      (inner : HasHidden member.2) : HasHidden (.obj members)
  | inItem {items : List Value} {item : Value} (mem : item ∈ items) (inner : HasHidden item) : HasHidden (.arr items)

end

variable {u : Letters}

/-- Members of which none is hidden and none holds a hidden key. -/
def CleanMembers (u : Letters) (members : List (String × Value)) : Prop :=
  ∀ member ∈ members, isHiddenField u member.1 = false ∧ ¬HasHidden u member.2

theorem clean_obj {members : List (String × Value)} : ¬HasHidden u (.obj members) ↔ CleanMembers u members := by
  constructor
  · intro h member mem
    refine ⟨?_, fun inner => h (.inMember mem inner)⟩
    cases hidden : isHiddenField u member.1 with
    | false => rfl
    | true => exact absurd (.key mem hidden) h
  · intro h hidden
    cases hidden with
    | key mem hidden =>
      rw [(h _ mem).1] at hidden
      cases hidden
    | inMember mem inner => exact (h _ mem).2 inner

theorem clean_arr {items : List Value} : ¬HasHidden u (.arr items) ↔ ∀ item ∈ items, ¬HasHidden u item := by
  constructor
  · intro h item mem inner
    exact h (.inItem mem inner)
  · intro h hidden
    cases hidden with
    | inItem mem inner => exact h _ mem inner

/-! ### The projection -/

mutual
theorem project_clean : ∀ v : Value, ¬HasHidden u (projectVisibleValue u v)
  | .obj members => clean_obj.2 (projectMembers_clean members)
  | .arr items => clean_arr.2 (projectItems_clean items)
  | .null | .bool _ | .int _ | .float _ | .str _ => fun h => by cases h

theorem projectItems_clean : ∀ items : List Value, ∀ item ∈ projectItems u items, ¬HasHidden u item
  | [] => fun _ h => by cases h
  | first :: rest => fun item mem => by
    rw [projectItems] at mem
    rcases List.mem_cons.1 mem with rfl | mem
    · exact project_clean first
    · exact projectItems_clean rest item mem

theorem projectMembers_clean : ∀ members : List (String × Value), CleanMembers u (projectMembers u members)
  | [] => fun _ h => by cases h
  | (key, first) :: rest => fun member mem => by
    rw [projectMembers] at mem
    by_cases hidden : isHiddenField u key = true
    · rw [if_pos hidden] at mem
      exact projectMembers_clean rest member mem
    · rw [if_neg hidden] at mem
      rcases List.mem_cons.1 mem with rfl | mem
      · exact ⟨Bool.eq_false_iff.2 hidden, project_clean first⟩
      · exact projectMembers_clean rest member mem
end

mutual
/-- A value with nothing to hide is shown as it is. -/
theorem project_of_clean : ∀ v : Value, ¬HasHidden u v → projectVisibleValue u v = v
  | .obj members, h => by rw [projectVisibleValue, projectMembers_of_clean members (clean_obj.1 h)]
  | .arr items, h => by rw [projectVisibleValue, projectItems_of_clean items (clean_arr.1 h)]
  | .null, _ | .bool _, _ | .int _, _ | .float _, _ | .str _, _ => rfl

theorem projectItems_of_clean : ∀ items : List Value, (∀ item ∈ items, ¬HasHidden u item) → projectItems u items = items
  | [], _ => rfl
  | first :: rest, h => by
    rw [projectItems, project_of_clean first (h first (List.mem_cons_self ..)),
      projectItems_of_clean rest (fun item mem => h item (List.mem_cons_of_mem _ mem))]

theorem projectMembers_of_clean : ∀ members : List (String × Value), CleanMembers u members → projectMembers u members = members
  | [], _ => rfl
  | (key, first) :: rest, h => by
    obtain ⟨shown, clean⟩ := h (key, first) (List.mem_cons_self ..)
    rw [projectMembers, if_neg (Bool.eq_false_iff.1 shown), project_of_clean first clean,
      projectMembers_of_clean rest (fun member mem => h member (List.mem_cons_of_mem _ mem))]
end

/-- What is shown has no hidden key at any depth, is shown the same again, and is the value itself exactly when the
value has no hidden key. -/
theorem projection_hides (u : Letters) (v : Value) :
    ¬HasHidden u (projectVisibleValue u v) ∧
    projectVisibleValue u (projectVisibleValue u v) = projectVisibleValue u v ∧
    (projectVisibleValue u v = v ↔ ¬HasHidden u v) := by
  refine ⟨project_clean v, project_of_clean _ (project_clean v), fun same => ?_, project_of_clean v⟩
  rw [← same]
  exact project_clean v

/-! ### Tools -/

mutual
/-- The paths that are listed are those of hidden keys. -/
theorem hiddenFieldPaths_of_clean : ∀ (v : Value) (path : String), ¬HasHidden u v → hiddenFieldPaths u path v = []
  | .obj members, path, h => hiddenMemberPaths_of_clean members path (clean_obj.1 h)
  | .arr items, path, h => hiddenItemPaths_of_clean items path 0 (clean_arr.1 h)
  | .null, _, _ | .bool _, _, _ | .int _, _, _ | .float _, _, _ | .str _, _, _ => rfl

theorem hiddenItemPaths_of_clean : ∀ (items : List Value) (path : String) (index : Nat),
    (∀ item ∈ items, ¬HasHidden u item) → hiddenItemPaths u path index items = []
  | [], _, _, _ => rfl
  | first :: rest, path, index, h => by
    rw [hiddenItemPaths, hiddenFieldPaths_of_clean first _ (h first (List.mem_cons_self ..)),
      hiddenItemPaths_of_clean rest path (index + 1) (fun item mem => h item (List.mem_cons_of_mem _ mem)), List.nil_append]

theorem hiddenMemberPaths_of_clean : ∀ (members : List (String × Value)) (path : String),
    CleanMembers u members → hiddenMemberPaths u path members = []
  | [], _, _ => rfl
  | (key, first) :: rest, path, h => by
    obtain ⟨shown, clean⟩ := h (key, first) (List.mem_cons_self ..)
    rw [hiddenMemberPaths, if_neg (Bool.eq_false_iff.1 shown), hiddenFieldPaths_of_clean first _ clean,
      hiddenMemberPaths_of_clean rest path (fun member mem => h member (List.mem_cons_of_mem _ mem)), List.nil_append,
      List.nil_append]
end

/-- Whatever keys are allowed, the fields that are given have nothing to hide. -/
theorem minimalVisibleFields_clean {payload : Value} {allowed : Option (List String)} {visible : List (String × Value)}
    (h : minimalVisibleFields u payload allowed = .ok visible) : CleanMembers u visible := by
  have step (members visible : List (String × Value)) (key : String) (clean : CleanMembers u visible) :
      CleanMembers u (visibleField u members visible key) := by
    unfold visibleField
    split
    · exact clean
    · rename_i item _
      split
      · exact clean
      · rename_i shown
        have put : isHiddenField u key = false ∧ ¬HasHidden u (projectVisibleValue u item) :=
          ⟨Bool.eq_false_iff.2 shown, project_clean item⟩
        intro member mem
        unfold Table.assign at mem
        split at mem
        · obtain ⟨row, hrow, rfl⟩ := List.mem_map.1 mem
          split
          · exact put
          · exact clean row hrow
        · rcases List.mem_append.1 mem with mem | mem
          · exact clean member mem
          · rw [List.mem_singleton.1 mem]
            exact put
  have run (members : List (String × Value)) (keys : List String) (visible : List (String × Value))
      (clean : CleanMembers u visible) : CleanMembers u (keys.foldl (visibleField u members) visible) := by
    induction keys generalizing visible with
    | nil => exact clean
    | cons key rest ih => exact ih _ (step members visible key clean)
  cases payload with
  | obj members =>
    cases h
    exact run members _ [] (fun _ mem => by cases mem)
  | _ => cases h

/-- A tool gives what is shown of its result, or says that this is nothing: what it gives holds no hidden key, and the
second look finds none. -/
theorem projectResult_clean {reprText : String → String} {name : String} {result : Value} :
    projectResult u reprText name result = visibleResult u reprText name result ∧
    ∀ shown, projectResult u reprText name result = .ok shown → ¬HasHidden u shown := by
  have clean : ∀ shown, visibleResult u reprText name result = .ok shown → ¬HasHidden u shown := by
    intro shown h
    unfold visibleResult at h
    split at h
    · rename_i projected hfields
      split at h
      · cases h
      · cases h
        exact clean_obj.2 (minimalVisibleFields_clean hfields)
    · cases h
      exact project_clean result
  have same : projectResult u reprText name result = visibleResult u reprText name result := by
    unfold projectResult
    cases h : visibleResult u reprText name result with
    | error e => rfl
    | ok shown =>
      change (do ensure _ _; return shown) = _
      rw [hiddenFieldPaths_of_clean shown "" (clean shown h)]
      rfl
  exact ⟨same, fun shown h => clean shown (same ▸ h)⟩

end Motte.Scenario
