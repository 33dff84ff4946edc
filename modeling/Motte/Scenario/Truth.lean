import Mathlib.Logic.Relation
import Motte.Scenario.Condition

/-! What a condition means.

A comparison needs its path to be there, unless it asks for just that; a junction
evaluates all of its children before it looks at any. So a condition can be answered
when none of its comparisons misses a path, and the answer is then the ordinary truth
of the tree: neither of the two knows an order of the children. -/
namespace Motte.Scenario
open Foundation

/-! ### Well formed conditions -/

/-- `_is_scalar` for the values of a document -/
def isScalar : Value → Bool
  | .arr _ => false
  | .obj _ => false
  | _ => true

/-- `Condition._op_shape`, for one node -/
def opShape (reprText : String → String) (op : ConditionOp) (path : Option String) (value : Value)
    (conditions : List Condition) : Except String Unit :=
  match op with
  | .eq | .ne => do
    ensure path.isSome ("condition op " ++ reprText op.text ++ " requires a path")
    ensure conditions.isEmpty ("condition op " ++ reprText op.text ++ " takes no nested conditions")
    ensure (isScalar value) ("condition op " ++ reprText op.text ++ " accepts scalar values only")
  | .in_ => do
    ensure path.isSome ("condition op " ++ reprText op.text ++ " requires a path")
    ensure conditions.isEmpty ("condition op " ++ reprText op.text ++ " takes no nested conditions")
    match value with
    | .arr items => do
      ensure (!items.isEmpty) "condition op 'in' requires a non-empty list value"
      ensure (items.all isScalar) "condition op 'in' accepts scalar values only"
    | _ => .error "condition op 'in' requires a list value"
  | .exists_ => do
    ensure path.isSome "condition op 'exists' requires a path"
    ensure (conditions.isEmpty && value = .null) "condition op 'exists' takes no value or nested conditions"
  | .and_ | .or_ => do
    ensure (path.isNone && value = .null) ("condition op " ++ reprText op.text ++ " takes no path or value")
    ensure (2 ≤ conditions.length) ("condition op " ++ reprText op.text ++ " requires at least two conditions")
  | .not_ => do
    ensure (path.isNone && value = .null) "condition op 'not' takes no path or value"
    ensure (conditions.length = 1) "condition op 'not' requires exactly one condition"

section
variable (reprText : String → String)

/-- A condition whose nodes all have the shape of their operator. -/
inductive Condition.Shaped : Condition → Prop where
  | node {op : ConditionOp} {path : Option String} {value : Value} {conditions : List Condition}
      (shape : opShape reprText op path value conditions = .ok ())
      (inner : ∀ condition ∈ conditions, condition.Shaped) : Condition.Shaped (.node op path value conditions)

end

/-- The operators that join conditions, whose children have no order. -/
def ConditionOp.Joins (op : ConditionOp) : Prop := op = .and_ ∨ op = .or_

/-- The operators that look at a path. -/
def ConditionOp.Compares (op : ConditionOp) : Prop := op = .eq ∨ op = .ne ∨ op = .in_ ∨ op = .exists_

namespace CompiledCondition

/-- A compiled condition that can be evaluated: a comparison has its path, and a membership a list. -/
inductive Formed : CompiledCondition → Prop where
  | comparison {op : ConditionOp} {path : List String} {value : Value} {children : List CompiledCondition}
      (compares : op.Compares) (list : op = .in_ → ∃ items, value = .arr items) : Formed (.node op (some path) value children)
  | junction {op : ConditionOp} {path : Option (List String)} {value : Value} {children : List CompiledCondition}
      (joins : op.Joins) (inner : ∀ child ∈ children, Formed child) : Formed (.node op path value children)
  | negation {path : Option (List String)} {value : Value} {child : CompiledCondition} (inner : Formed child) :
      Formed (.node .not_ path value [child])

end CompiledCondition

/-! ### What compiling keeps -/

theorem compilePath_some {text : String} {path : Option (List String)} (h : compilePath (some text) = .ok path) :
    ∃ segments, path = some segments := by
  simp only [compilePath, except_bind_ok_iff, ensure_ok_iff] at h
  obtain ⟨_, _, _, _, h⟩ := h
  exact ⟨_, (Except.ok.inj h).symm⟩

/-- The children that are built stand one by one for the conditions. -/
theorem buildAll_forall₂ {conditions : List Condition} {depth nodes : Nat} {children : List CompiledCondition} {total : Nat}
    (h : buildAll conditions depth nodes = .ok (children, total)) :
    List.Forall₂ (fun condition child => ∃ n m, build condition depth n = .ok (child, m)) conditions children := by
  induction conditions generalizing nodes children with
  | nil =>
    cases h
    exact .nil
  | cons condition rest ih =>
    simp only [buildAll, except_bind_ok_iff, Prod.exists] at h
    obtain ⟨child, m, hchild, others, _, hrest, h⟩ := h
    cases h
    exact .cons ⟨nodes, m, hchild⟩ (ih hrest)

/-- What is built of a condition of the right shape can be evaluated. -/
theorem build_formed {reprText : String → String} {condition : Condition} (shaped : condition.Shaped reprText)
    {depth nodes : Nat} {compiled : CompiledCondition} {total : Nat}
    (h : build condition depth nodes = .ok (compiled, total)) : compiled.Formed := by
  induction shaped generalizing depth nodes compiled total with
  | @node op path value conditions shape inner ih =>
    simp only [build, except_bind_ok_iff, ensure_ok_iff, Prod.exists] at h
    obtain ⟨_, _, _, _, segments, hpath, children, n, hchildren, h⟩ := h
    cases h
    have built := buildAll_forall₂ hchildren
    have formed : ∀ child ∈ children, child.Formed := by
      intro child hchild
      obtain ⟨condition, hcondition, _, _, hbuild⟩ := exists_of_forall₂ (List.Forall₂.flip built) hchild
      exact ih condition hcondition hbuild
    have compares (hop : op.Compares) (list : op = .in_ → ∃ items, value = .arr items) (hsome : path.isSome) :
        CompiledCondition.Formed (.node op segments value children) := by
      obtain ⟨text, rfl⟩ := Option.isSome_iff_exists.1 hsome
      obtain ⟨segments, rfl⟩ := compilePath_some hpath
      exact .comparison hop list
    cases op with
    | eq =>
      simp only [opShape, except_bind_ok_iff, ensure_ok_iff] at shape
      obtain ⟨_, hsome, _⟩ := shape
      exact compares (.inl rfl) (fun h => (by cases h)) hsome
    | ne =>
      simp only [opShape, except_bind_ok_iff, ensure_ok_iff] at shape
      obtain ⟨_, hsome, _⟩ := shape
      exact compares (.inr (.inl rfl)) (fun h => (by cases h)) hsome
    | in_ =>
      simp only [opShape, except_bind_ok_iff, ensure_ok_iff] at shape
      obtain ⟨_, hsome, _, _, shape⟩ := shape
      refine compares (.inr (.inr (.inl rfl))) (fun _ => ?_) hsome
      cases value with
      | arr items => exact ⟨items, rfl⟩
      | _ => cases shape
    | exists_ =>
      simp only [opShape, except_bind_ok_iff, ensure_ok_iff] at shape
      obtain ⟨_, hsome, _⟩ := shape
      exact compares (.inr (.inr (.inr rfl))) (fun h => (by cases h)) hsome
    | and_ => exact .junction (.inl rfl) formed
    | or_ => exact .junction (.inr rfl) formed
    | not_ =>
      simp only [opShape, except_bind_ok_iff, ensure_ok_iff] at shape
      obtain ⟨_, _, hone⟩ := shape
      have hlen : children.length = 1 := built.length_eq.symm.trans (by simpa using hone)
      obtain ⟨child, rfl⟩ := List.length_eq_one_iff.1 hlen
      exact .negation (formed child (List.mem_singleton_self _))

theorem compileCondition_formed {reprText : String → String} {condition : Condition} (shaped : condition.Shaped reprText)
    {compiled : CompiledCondition} (h : compileCondition condition = .ok compiled) : compiled.Formed := by
  simp only [compileCondition, except_bind_ok_iff, Prod.exists] at h
  obtain ⟨_, _, hbuild, h⟩ := h
  cases h
  exact build_formed shaped hbuild

/-! ### The meaning -/

/-- Whether a comparison is true of what stands at its path. -/
def ComparisonHolds (op : ConditionOp) (value : Value) (found : Option Value) : Prop :=
  match op with
  | .exists_ => found.isSome
  | .eq => ∃ actual, found = some actual ∧ sameScalar actual value
  | .ne => ∃ actual, found = some actual ∧ ¬sameScalar actual value
  | _ => ∃ actual items, found = some actual ∧ value = .arr items ∧ ∃ item ∈ items, sameScalar actual item

namespace CompiledCondition

mutual
/-- The operators and paths of the comparisons of a condition, from left to right. -/
def comparisons : CompiledCondition → List (ConditionOp × List String)
  | .node op path _ children =>
    match op with
    | .and_ | .or_ | .not_ => comparisonsAll children
    | op => [(op, path.getD [])]

def comparisonsAll : List CompiledCondition → List (ConditionOp × List String)
  | [] => []
  | child :: rest => comparisons child ++ comparisonsAll rest
end

mutual
/-- The ordinary truth of a condition. -/
def Holds (context : Value) : CompiledCondition → Prop
  | .node op path value children =>
    match op with
    | .and_ => AllHold context children
    | .or_ => AnyHolds context children
    | .not_ =>
      match children with
      | [] => False
      | child :: _ => ¬Holds context child
    | op => ComparisonHolds op value (resolve context (path.getD []))

def AllHold (context : Value) : List CompiledCondition → Prop
  | [] => True
  | child :: rest => Holds context child ∧ AllHold context rest

def AnyHolds (context : Value) : List CompiledCondition → Prop
  | [] => False
  | child :: rest => Holds context child ∨ AnyHolds context rest
end

/-- A comparison at some depth, other than `exists`, refers to a path that is not there. -/
def Missing (context : Value) (compiled : CompiledCondition) : Prop :=
  ∃ comparison ∈ compiled.comparisons, comparison.1 ≠ .exists_ ∧ resolve context comparison.2 = none

/-- The children of one junction, at any depth, in another order. -/
inductive Swap : CompiledCondition → CompiledCondition → Prop where
  | children {op : ConditionOp} {path : Option (List String)} {value : Value} {before after : List CompiledCondition}
      (joins : op.Joins) (perm : before.Perm after) : Swap (.node op path value before) (.node op path value after)
  | inside {op : ConditionOp} {path : Option (List String)} {value : Value} {left right : List CompiledCondition}
      {child other : CompiledCondition} (swap : Swap child other) :
      Swap (.node op path value (left ++ child :: right)) (.node op path value (left ++ other :: right))

variable {context : Value} {children : List CompiledCondition} {compiled other : CompiledCondition}

theorem mem_comparisonsAll {c : ConditionOp × List String} :
    c ∈ comparisonsAll children ↔ ∃ child ∈ children, c ∈ comparisons child := by
  induction children with
  | nil => simp [comparisonsAll]
  | cons child rest ih => simp [comparisonsAll, ih]

theorem allHold_iff : AllHold context children ↔ ∀ child ∈ children, Holds context child := by
  induction children with
  | nil => simp [AllHold]
  | cons child rest ih => simp [AllHold, ih]

theorem anyHolds_iff : AnyHolds context children ↔ ∃ child ∈ children, Holds context child := by
  induction children with
  | nil => simp [AnyHolds]
  | cons child rest ih => simp [AnyHolds, ih]

section
variable {op : ConditionOp} {path : Option (List String)} {value : Value}

theorem comparisons_junction (joins : op.Joins) : comparisons (.node op path value children) = comparisonsAll children := by
  rcases joins with rfl | rfl <;> rfl

theorem comparisons_comparison (compares : op.Compares) {segments : List String} :
    comparisons (.node op (some segments) value children) = [(op, segments)] := by
  rcases compares with rfl | rfl | rfl | rfl <;> rfl

theorem holds_comparison (compares : op.Compares) {segments : List String} :
    Holds context (.node op (some segments) value children) = ComparisonHolds op value (resolve context segments) := by
  rcases compares with rfl | rfl | rfl | rfl <;> rfl

/-- A junction misses what one of its children misses. -/
theorem missing_junction (joins : op.Joins) :
    Missing context (.node op path value children) ↔ ∃ child ∈ children, Missing context child := by
  simp only [Missing, comparisons_junction joins, mem_comparisonsAll]
  constructor
  · rintro ⟨c, ⟨child, hchild, hc⟩, h⟩
    exact ⟨child, hchild, c, hc, h⟩
  · rintro ⟨child, hchild, c, hc, h⟩
    exact ⟨c, ⟨child, hchild, hc⟩, h⟩

theorem missing_negation {child : CompiledCondition} :
    Missing context (.node .not_ path value [child]) ↔ Missing context child := by
  simp [Missing, comparisons, comparisonsAll]

theorem missing_comparison (compares : op.Compares) {segments : List String} :
    Missing context (.node op (some segments) value children) ↔ op ≠ .exists_ ∧ resolve context segments = none := by
  simp [Missing, comparisons_comparison compares]

end

/-! ### Another order -/

theorem Formed.swap (formed : compiled.Formed) (swap : Swap compiled other) : other.Formed := by
  induction swap with
  | children joins perm =>
    cases formed with
    | comparison compares list => exact .comparison compares list
    | junction _ inner => exact .junction joins (fun child hchild => inner child (perm.mem_iff.2 hchild))
    | negation => rcases joins with h | h <;> cases h
  | @inside op path value left right child other _ ih =>
    generalize hall : left ++ child :: right = all at formed
    cases formed with
    | comparison compares list => exact .comparison compares list
    | junction joins inner =>
      subst hall
      refine .junction joins (fun c hc => ?_)
      rcases List.mem_append.1 hc with hc | hc
      · exact inner c (List.mem_append_left _ hc)
      · rcases List.mem_cons.1 hc with rfl | hc
        · exact ih (inner child (by simp))
        · exact inner c (List.mem_append_right _ (List.mem_cons_of_mem _ hc))
    | negation inner =>
      obtain ⟨rfl, rfl, rfl⟩ : left = [] ∧ child = _ ∧ right = [] := by
        cases left with
        | nil =>
          injection hall with hchild hright
          exact ⟨rfl, hchild, hright⟩
        | cons _ _ =>
          injection hall with _ h
          cases List.append_eq_nil_iff.1 h |>.2
      exact .negation (ih inner)

/-- What misses a path still does in another order. -/
theorem missing_swap (swap : Swap compiled other) : Missing context compiled ↔ Missing context other := by
  suffices h : ∀ c, c ∈ compiled.comparisons ↔ c ∈ other.comparisons by simp only [Missing, h]
  intro c
  induction swap with
  | children joins perm =>
    rw [comparisons_junction joins, comparisons_junction joins, mem_comparisonsAll, mem_comparisonsAll]
    simp only [perm.mem_iff]
  | @inside op path value left right child other _ ih =>
    have all : c ∈ comparisonsAll (left ++ child :: right) ↔ c ∈ comparisonsAll (left ++ other :: right) := by
      simp only [mem_comparisonsAll, List.mem_append, List.mem_cons]
      grind
    cases op <;> first | exact all | exact Iff.rfl

/-- What is true is true in another order. -/
theorem holds_swap (swap : Swap compiled other) : Holds context compiled ↔ Holds context other := by
  induction swap with
  | @children op path value before after joins perm =>
    rcases joins with rfl | rfl
    · change AllHold context before ↔ AllHold context after
      simp only [allHold_iff, perm.mem_iff]
    · change AnyHolds context before ↔ AnyHolds context after
      simp only [anyHolds_iff, perm.mem_iff]
  | @inside op path value left right child other _ ih =>
    cases op with
    | and_ =>
      change AllHold context _ ↔ AllHold context _
      simp only [allHold_iff, List.forall_mem_append, List.forall_mem_cons, ih]
    | or_ =>
      change AnyHolds context _ ↔ AnyHolds context _
      simp only [anyHolds_iff, List.mem_append, List.mem_cons, or_and_right, exists_or, exists_eq_left, ih]
    | not_ =>
      cases left with
      | nil => exact not_congr ih
      | cons _ _ => exact Iff.rfl
    | _ => exact Iff.rfl

end CompiledCondition

/-! ### What evaluating does -/

section
variable {repr : Value → String} {context : Value} {compiled other : CompiledCondition}
open CompiledCondition

/-- Evaluating fails because of a path that is not there. -/
def FailsMissing (repr : Value → String) (context : Value) (compiled : CompiledCondition) : Prop :=
  ∃ dotted, evaluateCondition repr compiled context = .error (.condition (.pathMissing dotted))

/-- Evaluating gives an outcome, with this answer. -/
def Answers (repr : Value → String) (context : Value) (compiled : CompiledCondition) (answer : Bool) : Prop :=
  ∃ outcome, evaluateCondition repr compiled context = .ok outcome ∧ outcome.satisfied = answer

/-- Evaluating follows the meaning of a condition. -/
structure Evaluates (repr : Value → String) (context : Value) (compiled : CompiledCondition) : Prop where
  missing : compiled.Missing context → FailsMissing repr context compiled
  answers : ¬compiled.Missing context → ∃ answer, Answers repr context compiled answer ∧ (answer = true ↔ compiled.Holds context)

/-- A comparison whose path is there, or that asks whether it is, is answered. -/
theorem evaluates_comparison {op : ConditionOp} {path : List String} {value : Value} {children : List CompiledCondition}
    (compares : op.Compares) (list : op = .in_ → ∃ items, value = .arr items) :
    Evaluates repr context (.node op (some path) value children) := by
  have reads : evaluateCondition repr (.node op (some path) value children) context =
      evaluateComparison repr (.node op (some path) value children) op path value (resolve context path) := by
    rcases compares with rfl | rfl | rfl | rfl <;> rfl
  constructor
  · intro missing
    obtain ⟨hop, hnone⟩ := (missing_comparison compares).1 missing
    refine ⟨".".intercalate path, ?_⟩
    rw [reads, hnone]
    rcases compares with rfl | rfl | rfl | rfl <;> first | rfl | exact absurd rfl hop
  · intro present
    rw [missing_comparison compares] at present
    simp only [Answers, reads, holds_comparison compares]
    cases hfound : resolve context path with
    | none =>
      obtain rfl : op = .exists_ := by
        by_contra hop
        exact present ⟨hop, hfound⟩
      exact ⟨false, ⟨_, rfl, rfl⟩, by simp [ComparisonHolds]⟩
    | some actual =>
      rcases compares with rfl | rfl | rfl | rfl
      · exact ⟨_, ⟨_, rfl, rfl⟩, by simp [ComparisonHolds]⟩
      · exact ⟨_, ⟨_, rfl, rfl⟩, by simp [ComparisonHolds]⟩
      · obtain ⟨items, rfl⟩ := list rfl
        exact ⟨_, ⟨_, rfl, rfl⟩, by simp [ComparisonHolds]⟩
      · exact ⟨true, ⟨_, rfl, rfl⟩, by simp [ComparisonHolds]⟩

/-- No child is left out: one that misses a path is met whatever the others say. -/
theorem evaluateAll_missing {children : List CompiledCondition} (each : ∀ child ∈ children, Evaluates repr context child)
    (missing : ∃ child ∈ children, child.Missing context) :
    ∃ dotted, evaluateAll repr children context = .error (.condition (.pathMissing dotted)) := by
  induction children with
  | nil =>
    obtain ⟨_, h, _⟩ := missing
    cases h
  | cons child rest ih =>
    have first := each child (List.mem_cons_self ..)
    rw [evaluateAll]
    by_cases hchild : child.Missing context
    · obtain ⟨dotted, h⟩ := first.missing hchild
      exact ⟨dotted, by rw [h]; rfl⟩
    · obtain ⟨_, ⟨outcome, h, _⟩, _⟩ := first.answers hchild
      have later : ∃ c ∈ rest, c.Missing context := by
        obtain ⟨c, hc, hmissing⟩ := missing
        rcases List.mem_cons.1 hc with rfl | hc
        · exact absurd hmissing hchild
        · exact ⟨c, hc, hmissing⟩
      obtain ⟨dotted, hrest⟩ := ih (fun c hc => each c (List.mem_cons_of_mem _ hc)) later
      exact ⟨dotted, by rw [h, hrest]; rfl⟩

theorem evaluateAll_answers {children : List CompiledCondition} (each : ∀ child ∈ children, Evaluates repr context child)
    (present : ¬∃ child ∈ children, child.Missing context) :
    ∃ outcomes, evaluateAll repr children context = .ok outcomes ∧
      (outcomes.all (·.satisfied) = true ↔ AllHold context children) ∧
      (outcomes.any (·.satisfied) = true ↔ AnyHolds context children) := by
  induction children with
  | nil => exact ⟨[], rfl, by simp [AllHold], by simp [AnyHolds]⟩
  | cons child rest ih =>
    obtain ⟨answer, ⟨outcome, h, rfl⟩, hanswer⟩ := (each child (List.mem_cons_self ..)).answers
      (fun hchild => present ⟨child, List.mem_cons_self .., hchild⟩)
    obtain ⟨outcomes, hrest, hall, hany⟩ := ih (fun c hc => each c (List.mem_cons_of_mem _ hc))
      (fun ⟨c, hc, hmissing⟩ => present ⟨c, List.mem_cons_of_mem _ hc, hmissing⟩)
    refine ⟨outcome :: outcomes, by rw [evaluateAll, h, hrest]; rfl, ?_, ?_⟩
    · rw [List.all_cons, Bool.and_eq_true, hanswer, hall, AllHold]
    · rw [List.any_cons, Bool.or_eq_true, hanswer, hany, AnyHolds]

/-- A condition that can be evaluated is evaluated to what it means. -/
theorem Formed.evaluates (formed : compiled.Formed) : Evaluates repr context compiled := by
  induction formed with
  | comparison compares list => exact evaluates_comparison compares list
  | junction joins inner each =>
    constructor
    · intro missing
      obtain ⟨dotted, h⟩ := evaluateAll_missing each ((missing_junction joins).1 missing)
      refine ⟨dotted, ?_⟩
      rcases joins with rfl | rfl <;> (rw [evaluateCondition]; simp only [h]; rfl)
    · intro present
      obtain ⟨outcomes, h, hall, hany⟩ := evaluateAll_answers each (fun h => present ((missing_junction joins).2 h))
      rcases joins with rfl | rfl
      · exact ⟨_, ⟨_, by rw [evaluateCondition]; simp only [h]; rfl, rfl⟩, hall⟩
      · exact ⟨_, ⟨_, by rw [evaluateCondition]; simp only [h]; rfl, rfl⟩, hany⟩
  | negation _ ih =>
    constructor
    · intro missing
      obtain ⟨dotted, h⟩ := ih.missing (missing_negation.1 missing)
      exact ⟨dotted, by rw [evaluateCondition]; simp only [h]; rfl⟩
    · intro present
      obtain ⟨_, ⟨outcome, h, rfl⟩, hanswer⟩ := ih.answers (fun h => present (missing_negation.2 h))
      refine ⟨_, ⟨_, by rw [evaluateCondition]; simp only [h]; rfl, rfl⟩, ?_⟩
      change (!outcome.satisfied) = true ↔ ¬_
      rw [← hanswer, Bool.not_eq_true', Bool.not_eq_true]

theorem Evaluates.failsMissing_iff (h : Evaluates repr context compiled) :
    FailsMissing repr context compiled ↔ compiled.Missing context := by
  refine ⟨fun ⟨dotted, hfails⟩ => ?_, h.missing⟩
  by_contra present
  obtain ⟨_, ⟨_, hok, _⟩, _⟩ := h.answers present
  rw [hfails] at hok
  cases hok

theorem Evaluates.answers_iff (h : Evaluates repr context compiled) {answer : Bool} :
    Answers repr context compiled answer ↔ ¬compiled.Missing context ∧ (answer = true ↔ compiled.Holds context) := by
  constructor
  · rintro ⟨outcome, hok, rfl⟩
    have present : ¬compiled.Missing context := fun missing => by
      obtain ⟨_, hfails⟩ := h.missing missing
      rw [hok] at hfails
      cases hfails
    obtain ⟨_, ⟨_, hagain, rfl⟩, hanswer⟩ := h.answers present
    cases hok.symm.trans hagain
    exact ⟨present, hanswer⟩
  · rintro ⟨present, hanswer⟩
    obtain ⟨given, hgiven, hholds⟩ := h.answers present
    rwa [Bool.eq_iff_iff.2 (hanswer.trans hholds.symm)]

/-- Evaluating a condition that the compiler accepts fails exactly when a comparison that needs its path does not
find it, and else gives the ordinary truth, whatever the order of the children of the junctions. -/
theorem evaluate_reference {reprText : String → String} {condition : Condition} (shaped : condition.Shaped reprText)
    (hcompiled : compileCondition condition = .ok compiled) (context : Value) :
    (FailsMissing repr context compiled ↔ compiled.Missing context) ∧
    (¬compiled.Missing context → ∃ answer, Answers repr context compiled answer ∧ (answer = true ↔ compiled.Holds context)) ∧
    ∀ other, Relation.ReflTransGen Swap compiled other →
      (FailsMissing repr context other ↔ FailsMissing repr context compiled) ∧
      ∀ answer, Answers repr context other answer ↔ Answers repr context compiled answer := by
  have formed := compileCondition_formed shaped hcompiled
  have evaluates : Evaluates repr context compiled := Formed.evaluates formed
  refine ⟨evaluates.failsMissing_iff, evaluates.answers, fun other swaps => ?_⟩
  have same : other.Formed ∧ (other.Missing context ↔ compiled.Missing context) ∧ (other.Holds context ↔ compiled.Holds context) := by
    induction swaps with
    | refl => exact ⟨formed, Iff.rfl, Iff.rfl⟩
    | tail _ swap ih =>
      exact ⟨ih.1.swap swap, (missing_swap swap).symm.trans ih.2.1, (holds_swap swap).symm.trans ih.2.2⟩
  have there : Evaluates repr context other := Formed.evaluates same.1
  rw [there.failsMissing_iff, evaluates.failsMissing_iff]
  refine ⟨same.2.1, fun answer => ?_⟩
  rw [there.answers_iff, evaluates.answers_iff, same.2.1, same.2.2]

/-- One of two paths is there, and the other is only asked for. -/
theorem evaluate_reference_two :
    ¬FailsMissing (fun _ => "") (.obj [("state", .obj [("a", .int 1)])])
      (.node .or_ none .null [.node .exists_ (some ["step_results", "b"]) .null [], .node .eq (some ["state", "a"]) (.int 1) []]) := by
  have shaped : (Condition.node .or_ none .null [.node .exists_ (some "step_results.b") .null [],
      .node .eq (some "state.a") (.int 1) []]).Shaped (fun t => t) := by
    refine .node rfl (fun condition h => ?_)
    rcases List.mem_cons.1 h with rfl | h
    · exact .node rfl nofun
    · rw [List.mem_singleton.1 h]
      exact .node rfl nofun
  have compiles : compileCondition (.node .or_ none .null [.node .exists_ (some "step_results.b") .null [],
      .node .eq (some "state.a") (.int 1) []]) = .ok (.node .or_ none .null [.node .exists_ (some ["step_results", "b"]) .null [],
      .node .eq (some ["state", "a"]) (.int 1) []]) := by
    have first : compilePath (some "step_results.b") = .ok (some ["step_results", "b"]) := by decide +kernel
    have second : compilePath (some "state.a") = .ok (some ["state", "a"]) := by decide +kernel
    simp only [compileCondition, build, buildAll, first, second]
    rfl
  intro fails
  obtain ⟨c, hc, hop, hnone⟩ := (evaluate_reference shaped compiles _).1.1 fails
  rcases List.mem_cons.1 hc with rfl | hc
  · exact hop rfl
  · rw [List.mem_singleton.1 hc] at hnone
    cases hnone

end

end Motte.Scenario
