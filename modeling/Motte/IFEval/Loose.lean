import Motte.DirectLlm.Canonical
import Motte.Foundation.Op
import Motte.IFEval.Rules

/-! What passes strictly passes loosely.

Folding white space keeps what is in front, at the end or within. A text that is an
object as it stands has no fence around it, since it ends with a brace. And there are
no more words with a letter or a digit than there are words. -/
namespace Motte.IFEval
open Foundation DirectLlm

/-! ### An object ends with a brace -/

/-- The words that are read stand for no object. -/
def Settled (m : Machine) : Prop := ∀ rest v, m.mode = .word rest (.value v) → ∀ members, v ≠ .object members

section
variable {limit : ℕ} {stack : List Frame} {m m' : Machine} {v w : JsonValue} {c : Char} {members : List (List ℕ × JsonValue)}

theorem endValue_done (h : (endValue stack v).mode = .done w) : w = v := by
  unfold endValue at h
  split at h <;> cases h
  rfl

theorem endValue_settled (stack : List Frame) (v : JsonValue) : Settled (endValue stack v) := by
  intro rest w h
  unfold endValue at h
  split at h <;> cases h

theorem beginValue_mode (h : beginValue limit stack c = .ok m) : (∀ v, m.mode ≠ .done v) ∧ Settled m := by
  have hread : ∀ {mode : Mode}, (∀ v, mode ≠ .done v) → (∀ rest v, mode = .word rest (.value v) → ∀ ms, v ≠ .object ms) →
      (.ok { stack, mode } : Except JsonFault Machine) = .ok m → (∀ v, m.mode ≠ .done v) ∧ Settled m := by
    intro mode hdone hword hok
    cases hok
    exact ⟨hdone, hword⟩
  refine ite_ok h (hread (by simp) (by simp)) fun h => ?_
  refine ite_ok h (fun h => ite_ok h (fun h => by cases h) (hread (by simp) (by simp))) fun h => ?_
  refine ite_ok h (fun h => ite_ok h (fun h => by cases h) (hread (by simp) (by simp))) fun h => ?_
  refine ite_ok h (hread (by simp) (by simp)) fun h => ite_ok h (hread (by simp) (by simp)) fun h => ?_
  refine ite_ok h (hread (by simp) (by simp)) fun h => ite_ok h (hread (by simp) (by simp)) fun h => ?_
  refine ite_ok h (hread (by simp) (by simp)) fun h => ite_ok h (hread (by simp) (by simp)) fun h => ?_
  exact ite_ok h (hread (by simp) (by simp)) fun h => ite_ok h (hread (by simp) (by simp)) fun h => by cases h

/-- What a step can do, as far as it is asked here. -/
structure Stepped (m' : Machine) (c : Char) : Prop where
  settled : Settled m'
  object : ∀ members, m'.mode = .done (.object members) → isJsonSpace c = false → c = '}'

theorem stepped_endValue (h : ∀ members, v ≠ .object members) : Stepped (endValue stack v) c := by
  refine ⟨endValue_settled stack v, fun members hdone _ => ?_⟩
  exact absurd (endValue_done hdone).symm (h members)

theorem stepped_beginValue (h : beginValue limit stack c = .ok m) : Stepped m c :=
  ⟨(beginValue_mode h).2, fun _ hdone _ => absurd hdone ((beginValue_mode h).1 _)⟩

theorem stepped_other {mode : Mode} (hdone : ∀ v, mode ≠ .done v)
    (hword : ∀ rest v, mode = .word rest (.value v) → ∀ ms, v ≠ .object ms) : Stepped { stack, mode } c :=
  ⟨hword, fun _ h => absurd h (hdone _)⟩

theorem stepPlain_stepped (hm : Settled m) (h : stepPlain limit m c = .ok m') : Stepped m' c := by
  obtain ⟨stack, mode⟩ := m
  cases mode with
  | value =>
    simp only [stepPlain] at h
    split at h
    · cases h
      exact stepped_other (by simp) (by simp)
    · exact stepped_beginValue h
  | firstItem =>
    simp only [stepPlain] at h
    split_ifs at h
    · cases h
      exact stepped_other (by simp) (by simp)
    · cases h
      exact stepped_endValue (by simp)
    · exact stepped_beginValue h
  | afterItem items =>
    simp only [stepPlain] at h
    split_ifs at h <;> cases h
    · exact stepped_other (by simp) (by simp)
    · exact stepped_other (by simp) (by simp)
    · exact stepped_endValue (by simp)
  | firstKey =>
    simp only [stepPlain] at h
    split_ifs at h with hspace hclose hquote <;> cases h
    · exact stepped_other (by simp) (by simp)
    · exact ⟨endValue_settled _ _, fun _ _ _ => hclose⟩
    · exact stepped_other (by simp) (by simp)
  | key members =>
    simp only [stepPlain] at h
    split_ifs at h <;> cases h <;> exact stepped_other (by simp) (by simp)
  | keyText members read escape =>
    simp only [stepPlain] at h
    split at h <;> cases h <;> exact stepped_other (by simp) (by simp)
  | colon members key =>
    simp only [stepPlain] at h
    split_ifs at h <;> cases h <;> exact stepped_other (by simp) (by simp)
  | afterMember members =>
    simp only [stepPlain] at h
    split_ifs at h with hspace hcomma hclose
    · cases h
      exact stepped_other (by simp) (by simp)
    · cases h
      exact stepped_other (by simp) (by simp)
    · unfold endObject at h
      split at h <;> cases h
      exact ⟨endValue_settled _ _, fun _ _ _ => hclose⟩
  | text read escape =>
    simp only [stepPlain] at h
    split at h <;> cases h
    · exact stepped_other (by simp) (by simp)
    · exact stepped_endValue (by simp)
  | number read part => cases h
  | word rest word =>
    cases rest with
    | nil => cases h
    | cons expected rest =>
      simp only [stepPlain] at h
      split_ifs at h
      · cases h
        refine stepped_other (by simp) (fun rest' v hword => ?_)
        rw [Mode.word.injEq] at hword
        exact hm _ v (congrArg (Mode.word (expected :: rest)) hword.2)
      · cases word with
        | value v =>
          cases h
          exact stepped_endValue (hm _ v rfl)
        | constant => cases h
  | done v =>
    simp only [stepPlain] at h
    split at h <;> cases h
    rename_i hspace
    refine ⟨(fun rest w hword => by cases hword), fun members _ hnot => ?_⟩
    rw [hspace] at hnot
    cases hnot

theorem stepText_stepped (hm : Settled m) (h : stepText limit m c = .ok m') : Stepped m' c := by
  unfold stepText at h
  split at h
  · split at h
    · cases h
      exact stepped_other (by simp) (by simp)
    · cases h
      exact stepped_other (by simp) (by simp)
    · cases h
    · split at h
      · cases h
      · exact stepPlain_stepped (endValue_settled _ _) h
  · exact stepPlain_stepped hm h

theorem run_settled {text : List Char} (hm : Settled m) (h : text.foldlM (stepText limit) m = .ok m') : Settled m' := by
  induction text generalizing m with
  | nil =>
    cases h
    exact hm
  | cons c text ih =>
    rw [List.foldlM_cons] at h
    cases hstep : stepText limit m c with
    | error e =>
      rw [hstep] at h
      cases h
    | ok next =>
      rw [hstep] at h
      exact ih (stepText_stepped hm hstep).settled h

/-- The last character of an object's text is a brace, if it is not white space. -/
theorem object_end {text : List Char} {keys : List (List ℕ)} (hspace : isJsonSpace c = false)
    (h : parseJsonObject limit (text ++ [c]) = .ok (some keys)) : c = '}' := by
  unfold parseJsonObject at h
  split at h
  · cases h
  · cases h
  · rename_i members hloads
    unfold loadsText at hloads
    rw [List.foldlM_append] at hloads
    cases hrun : text.foldlM (stepText limit) Machine.start with
    | error e =>
      rw [hrun] at hloads
      cases hloads
    | ok m =>
      rw [hrun] at hloads
      have hstart : Settled Machine.start := fun rest v hword => by cases hword
      have hm := run_settled hstart hrun
      simp only [bind, Except.bind, List.foldlM_cons, List.foldlM_nil, pure, Except.pure] at hloads
      cases hstep : stepText limit m c with
      | error e =>
        rw [hstep] at hloads
        cases hloads
      | ok m' =>
        rw [hstep] at hloads
        simp only at hloads
        unfold endText at hloads
        split at hloads
        · rename_i v hdone
          cases hloads
          exact (stepText_stepped hm hstep).object members hdone hspace
        · cases hloads
  · cases h

end

/-! ### No fence around an object -/

theorem splitLines_last {line text : List Char} {c : Char} (hc : isLineBreak c = false) (h : text.getLast? = some c) :
    ∃ init, (splitLines line text).getLast? = some (init ++ [c]) := by
  fun_induction splitLines line text with
  | case1 => cases h
  | case2 line hne => cases h
  | case3 line rest ih =>
    cases rest with
    | nil =>
      cases h
      cases hc
    | cons d rest =>
      obtain ⟨init, hinit⟩ := ih (by rw [← h]; rfl)
      refine ⟨init, ?_⟩
      cases hlines : splitLines [] (d :: rest) with
      | nil =>
        rw [hlines] at hinit
        cases hinit
      | cons first lines =>
        rw [hlines] at hinit
        rw [List.getLast?_cons_cons]
        exact hinit
  | case4 line d rest hne hbreak ih =>
    cases rest with
    | nil =>
      have hd : d = c := by simpa using h
      rw [hd, hc] at hbreak
      cases hbreak
    | cons e rest =>
      obtain ⟨init, hinit⟩ := ih (by rw [← h]; rfl)
      refine ⟨init, ?_⟩
      cases hlines : splitLines [] (e :: rest) with
      | nil =>
        rw [hlines] at hinit
        cases hinit
      | cons first lines =>
        rw [hlines] at hinit
        rw [List.getLast?_cons_cons]
        exact hinit
  | case5 line d rest hne hbreak ih =>
    cases rest with
    | nil =>
      have hd : d = c := by simpa using h
      refine ⟨line, ?_⟩
      rw [splitLines, if_neg (List.append_ne_nil_of_right_ne_nil _ (List.cons_ne_nil _ _)), hd]
      rfl
    | cons e rest => exact ih (by rw [← h]; rfl)

section
variable {u : Unicode} {text init : List Char} {c : Char}

theorem strip_last (h : c ∈ (u.strip text).getLast?) : u.space c = false := by
  unfold Unicode.strip at h
  rw [List.getLast?_reverse] at h
  have hnot := List.head?_dropWhile_not u.space (text.dropWhile u.space).reverse
  rw [h] at hnot
  simpa using hnot

theorem strip_append (h : u.space c = false) (text : List Char) : ∃ init, u.strip (text ++ [c]) = init ++ [c] := by
  have hdrop : ∃ rest, (text ++ [c]).dropWhile u.space = rest ++ [c] := by
    rw [List.dropWhile_append]
    split
    · exact ⟨[], by rw [List.dropWhile_cons_of_neg (by rw [h]; exact Bool.false_ne_true)]; rfl⟩
    · exact ⟨_, rfl⟩
  obtain ⟨rest, hrest⟩ := hdrop
  refine ⟨rest, ?_⟩
  unfold Unicode.strip
  rw [hrest, List.reverse_append, List.reverse_singleton, List.singleton_append,
    List.dropWhile_cons_of_neg (by rw [h]; exact Bool.false_ne_true), List.reverse_cons, List.reverse_reverse]

theorem isJsonSpace_space (h : u.space c = false) : isJsonSpace c = false := by
  by_contra hspace
  rw [Bool.not_eq_false] at hspace
  unfold isJsonSpace at hspace
  simp only [Bool.or_eq_true, decide_eq_true_eq] at hspace
  have hascii : c.toNat < 128 ∧ c.toNat ∈ [9, 10, 11, 12, 13, 28, 29, 30, 31, 32] := by
    obtain ((rfl | rfl) | rfl) | rfl := hspace <;> decide
  rw [u.space_ascii hascii.1, decide_eq_false_iff_not] at h
  exact h hascii.2

end

variable {s : Setup} {output : List Char}

/-- A text that is an object as it stands is taken as it is. -/
theorem unwrap_of_object {keys : List (List ℕ)} (hstrip : output = s.unicode.strip output)
    (hkeys : parseJsonObject s.jsonLimit output = .ok (some keys)) : unwrapJsonFence s output = output := by
  cases hlast : output.getLast? with
  | none =>
    rw [List.getLast?_eq_none_iff] at hlast
    rw [hlast] at hkeys
    cases hkeys
  | some c =>
    have hspace : s.unicode.space c = false := by
      refine @strip_last _ output _ ?_
      rw [← hstrip]
      exact hlast
    obtain ⟨init, hinit⟩ := List.getLast?_eq_some_iff.1 hlast
    have hbrace : c = '}' := by
      rw [hinit] at hkeys
      exact object_end (isJsonSpace_space hspace) hkeys
    subst hbrace
    unfold unwrapJsonFence
    rw [← hstrip]
    simp only
    split
    · rename_i first second third more hlines
      refine if_neg fun hfence => ?_
      obtain ⟨line, hline⟩ := @splitLines_last [] _ _ (by decide) hlast
      obtain ⟨rest, hrest⟩ := strip_append hspace line
      have hticks := hfence.2
      rw [hlines] at hline
      rw [List.getLastD_eq_getLast?, hline, Option.getD_some, hrest] at hticks
      have hends := congrArg List.getLast? hticks
      rw [List.getLast?_concat] at hends
      cases hends
    · rfl

/-! ### Strict implies loose -/

/-- Folding white space and folding case can be exchanged, with what stands for a space between words. -/
theorem comparable_loose (caseSensitive : Bool) (value : List Char) : ∃ sep,
    ∀ text, comparable s caseSensitive (looseText s text) = foldedBy s.unicode.space sep (comparable s caseSensitive text) := by
  cases caseSensitive with
  | true => exact ⟨[' '], fun text => rfl⟩
  | false => exact ⟨[' '].flatMap s.fold, fun text => s.keeps.folded [' '] text⟩

theorem TextOperation.holds_folded {operation : TextOperation} {p : Char → Bool} {value text : List Char} (sep : List Char)
    (h : operation.holds value text = true) : operation.holds (foldedBy p sep value) (foldedBy p sep text) = true := by
  cases operation with
  | contains => exact decide_eq_true (foldedBy_within sep (of_decide_eq_true h))
  | startsWith => exact decide_eq_true (foldedBy_of_start sep (of_decide_eq_true h))
  | endsWith => exact decide_eq_true (foldedBy_of_end sep (of_decide_eq_true h))

/-- What passes strictly passes loosely. -/
theorem evaluate_loose {rule : Rule} {config : RuleConfig} {strict loose : Bool}
    (h : evaluate s rule config output = .ok (strict, loose)) (hstrict : strict = true) : loose = true := by
  cases rule with
  | text operation =>
    cases config with
    | text value caseSensitive =>
      simp only [evaluate, Except.ok.injEq, Prod.mk.injEq] at h
      obtain ⟨sep, hsep⟩ := comparable_loose (s := s) caseSensitive value.toList
      rw [hsep, hsep] at h
      rw [← h.2]
      exact TextOperation.holds_folded sep (h.1.trans hstrict)
    | jsonObject _ _ => cases h
    | maxWords _ => cases h
  | jsonObject =>
    cases config with
    | text _ _ => cases h
    | jsonObject requiredKeys allowExtraKeys =>
      simp only [evaluate, except_bind_ok_iff, except_pure_ok_iff, Prod.mk.injEq] at h
      obtain ⟨strictKeys, hstrictKeys, looseKeys, hlooseKeys, hpass, hpass'⟩ := h
      rw [hstrict] at hpass
      cases strictKeys with
      | none => cases hpass
      | some keys =>
        unfold strictObject at hstrictKeys
        split at hstrictKeys
        · cases hstrictKeys
        · rename_i hstrip
          rw [not_not] at hstrip
          rw [unwrap_of_object hstrip hstrictKeys, hstrictKeys, Except.ok.injEq] at hlooseKeys
          rw [← hpass', ← hlooseKeys]
          exact hpass
    | maxWords _ => cases h
  | maxWords =>
    cases config with
    | text _ _ => cases h
    | jsonObject _ _ => cases h
    | maxWords maximum =>
      simp only [evaluate, Except.ok.injEq, Prod.mk.injEq] at h
      rw [hstrict] at h
      have hle : ((s.split output).length : ℤ) ≤ maximum := of_decide_eq_true h.1
      have hfewer : ((s.split output).filter (fun token => token.any s.alnum)).length ≤ (s.split output).length :=
        List.length_filter_le _ _
      rw [← h.2]
      exact decide_eq_true (by omega)

end Motte.IFEval
