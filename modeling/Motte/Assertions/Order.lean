import Motte.Assertions.ResponsePolicy
import Motte.Foundation.Choice

/-! The order of required matches.

One pass takes for each matcher the first of its keys after the one that was taken last. A
matcher that asks for no match is passed over. Keys come in order, so the pass succeeds when
any choice of keys would. -/
namespace Motte.Assertions
open Foundation

/-- The matcher asks for a match. -/
def Matcher.needed (m : Matcher) : Bool := m.minCount ≠ some (some 0)

/-- The keys of the matchers that ask for a match. -/
def neededKeys (require : List (Matcher × List ℕ)) : List (List ℕ) :=
  (require.filter (fun entry => entry.1.needed)).map Prod.snd

/-- What is read of a minimum that is not null. -/
theorem minimum_of_given {m : Matcher} (given : m.minCount ≠ some none) :
    ∃ minimum, m.minimum = .ok minimum ∧ (minimum < 1 ↔ m.needed = false) := by
  unfold Matcher.minimum Matcher.needed
  cases hcount : m.minCount with
  | none => exact ⟨1, rfl, by decide⟩
  | some bound =>
    cases bound with
    | none => exact absurd hcount given
    | some minimum => exact ⟨minimum, rfl, by simp⟩

/-- The pass over a matcher that asks for a number of matches. -/
theorem orderFrom_cons {m : Matcher} {minimum : ℕ} (hminimum : m.minimum = .ok minimum) (keys : List ℕ)
    (rest : List (Matcher × List ℕ)) (cursor : Option ℕ) :
    orderFrom cursor ((m, keys) :: rest) =
      if minimum < 1 then orderFrom cursor rest
      else match keys.find? (above cursor) with
        | none => .ok false
        | some candidate => orderFrom (some candidate) rest := by
  rw [orderFrom, hminimum]
  rfl

/-- What the pass answers from a cursor on. -/
theorem orderFrom_iff {require : List (Matcher × List ℕ)} (given : ∀ entry ∈ require, entry.1.minCount ≠ some none)
    (ordered : ∀ entry ∈ require, entry.2.Pairwise (· ≤ ·)) (cursor : Option ℕ) :
    ∃ satisfied, orderFrom cursor require = .ok satisfied ∧
      (satisfied = true ↔ ∃ choice, ChosenAbove cursor (neededKeys require) choice) := by
  induction require generalizing cursor with
  | nil => exact ⟨true, rfl, iff_of_true rfl ⟨[], chosenAbove_nil⟩⟩
  | cons entry rest ih =>
    obtain ⟨m, keys⟩ := entry
    obtain ⟨hgiven, hgivenRest⟩ := List.forall_mem_cons.1 given
    obtain ⟨hordered, horderedRest⟩ := List.forall_mem_cons.1 ordered
    obtain ⟨minimum, hminimum, hneeded⟩ := minimum_of_given hgiven
    rw [orderFrom_cons hminimum]
    by_cases hzero : minimum < 1
    · have hkeys : neededKeys ((m, keys) :: rest) = neededKeys rest := by
        unfold neededKeys
        rw [List.filter_cons_of_neg (by simp [hneeded.1 hzero])]
      rw [if_pos hzero, hkeys]
      exact ih hgivenRest horderedRest cursor
    · have hkeys : neededKeys ((m, keys) :: rest) = keys :: neededKeys rest := by
        unfold neededKeys
        rw [List.filter_cons_of_pos (by simpa using mt hneeded.2 hzero), List.map_cons]
      rw [if_neg hzero, hkeys, exists_chosenAbove_cons hordered]
      cases hfind : keys.find? (above cursor) with
      | none => exact ⟨false, rfl, by simp⟩
      | some candidate =>
        obtain ⟨satisfied, hsatisfied, hiff⟩ := ih hgivenRest horderedRest (some candidate)
        refine ⟨satisfied, hsatisfied, hiff.trans ?_⟩
        simp only [Option.some.injEq, exists_eq_left']

end Motte.Assertions
