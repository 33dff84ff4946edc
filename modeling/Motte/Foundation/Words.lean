import Mathlib.Data.List.Basic

/-! Texts as words.

The words of a text are what is left between its separators. Written again with one
separator between them, the words of a part of a text are a part of the words of the whole,
in front, at the end or within, as the part was. A change of characters that makes no separator
of what is none, and none of what is one, changes the words and keeps their places. -/
namespace Motte.Foundation
variable {α β : Type*}

/-- `text.split()` -/
def wordsOf (p : α → Bool) (text : List α) : List (List α) := (text.splitOnP p).filter (fun word => !word.isEmpty)

/-- `sep.join(text.split())` -/
def foldedBy (p : α → Bool) (sep text : List α) : List α := sep.intercalate (wordsOf p text)

section
variable {p : α → Bool} {c d : α} {sep x y text rest word : List α}

theorem splitOnP_cons_ne_nil (p : α → Bool) (text : List α) : ∃ first rest, text.splitOnP p = first :: rest := by
  cases h : text.splitOnP p with
  | nil => exact absurd h (List.splitOnP_ne_nil p text)
  | cons first rest => exact ⟨first, rest, rfl⟩

@[simp] theorem wordsOf_nil (p : α → Bool) : wordsOf p [] = [] := rfl

theorem wordsOf_separator (h : p c = true) : wordsOf p (c :: text) = wordsOf p text := by
  unfold wordsOf
  rw [List.splitOnP_cons_eq_if_modifyHead, if_pos h]
  rfl

theorem wordsOf_single (h : p c = false) : wordsOf p [c] = [[c]] := by
  unfold wordsOf
  rw [List.splitOnP_cons_eq_if_modifyHead, if_neg (by rw [h]; exact Bool.false_ne_true)]
  rfl

/-- A word of one character, before a separator. -/
theorem wordsOf_ended (h : p c = false) (hd : p d = true) : wordsOf p (c :: d :: text) = [c] :: wordsOf p text := by
  unfold wordsOf
  rw [List.splitOnP_cons_eq_if_modifyHead, if_neg (by rw [h]; exact Bool.false_ne_true), List.splitOnP_cons_eq_if_modifyHead, if_pos hd]
  rfl

/-- A word goes on. -/
theorem wordsOf_longer (h : p c = false) (hd : p d = false) :
    ∃ word words, wordsOf p (d :: text) = word :: words ∧ wordsOf p (c :: d :: text) = (c :: word) :: words := by
  obtain ⟨first, rest, hsplit⟩ := splitOnP_cons_ne_nil p text
  refine ⟨d :: first, rest.filter (fun word => !word.isEmpty), ?_, ?_⟩
  · unfold wordsOf
    rw [List.splitOnP_cons_eq_if_modifyHead, if_neg (by rw [hd]; exact Bool.false_ne_true), hsplit]
    rfl
  · unfold wordsOf
    rw [List.splitOnP_cons_eq_if_modifyHead, if_neg (by rw [h]; exact Bool.false_ne_true), List.splitOnP_cons_eq_if_modifyHead,
      if_neg (by rw [hd]; exact Bool.false_ne_true), hsplit]
    rfl

/-! ### Words written again -/

/-- What comes after a first word. -/
def afterWord (p : α → Bool) (sep text : List α) : List α := if wordsOf p text = [] then [] else sep ++ foldedBy p sep text

theorem intercalate_cons (sep word : List α) (words : List (List α)) :
    sep.intercalate (word :: words) = word ++ if words = [] then [] else sep ++ sep.intercalate words := by
  cases words with
  | nil => simp [List.intercalate]
  | cons w ws => simp [List.intercalate, List.intersperse]

theorem foldedBy_separator (h : p c = true) : foldedBy p sep (c :: text) = foldedBy p sep text := by
  unfold foldedBy
  rw [wordsOf_separator h]

theorem foldedBy_single (h : p c = false) : foldedBy p sep [c] = [c] := by
  unfold foldedBy
  rw [wordsOf_single h]
  simp [List.intercalate]

theorem foldedBy_ended (h : p c = false) (hd : p d = true) : foldedBy p sep (c :: d :: text) = c :: afterWord p sep text := by
  unfold foldedBy afterWord
  rw [wordsOf_ended h hd, intercalate_cons]
  rfl

theorem foldedBy_longer (h : p c = false) (hd : p d = false) :
    foldedBy p sep (c :: d :: text) = c :: foldedBy p sep (d :: text) := by
  obtain ⟨word, words, hwords, hlonger⟩ := @wordsOf_longer _ _ _ _ text h hd
  unfold foldedBy
  rw [hlonger, hwords, intercalate_cons, intercalate_cons, List.cons_append]

theorem wordsOf_ne_nil_append (h : wordsOf p x ≠ []) : wordsOf p (x ++ y) ≠ [] := by
  induction x with
  | nil => exact absurd rfl h
  | cons c x ih =>
    cases hc : p c with
    | true =>
      rw [wordsOf_separator hc] at h
      rw [List.cons_append, wordsOf_separator hc]
      exact ih h
    | false =>
      intro hnil
      cases hrest : x ++ y with
      | nil =>
        rw [List.cons_append, hrest, wordsOf_single hc] at hnil
        cases hnil
      | cons d rest =>
        rw [List.cons_append, hrest] at hnil
        cases hd : p d with
        | true =>
          rw [wordsOf_ended hc hd] at hnil
          cases hnil
        | false =>
          obtain ⟨word, words, -, hlonger⟩ := @wordsOf_longer _ _ _ _ rest hc hd
          rw [hlonger] at hnil
          cases hnil

/-- The words in front of a text are in front of its words. -/
theorem foldedBy_start (sep x y : List α) : foldedBy p sep x <+: foldedBy p sep (x ++ y) := by
  induction x with
  | nil => exact List.nil_prefix
  | cons c x ih =>
    cases hc : p c with
    | true =>
      rw [foldedBy_separator hc, List.cons_append, foldedBy_separator hc]
      exact ih
    | false =>
      cases x with
      | nil =>
        rw [List.singleton_append]
        cases y with
        | nil => exact List.prefix_rfl
        | cons d y =>
          rw [foldedBy_single hc]
          cases hd : p d with
          | true =>
            rw [foldedBy_ended hc hd]
            exact ⟨_, rfl⟩
          | false =>
            rw [foldedBy_longer hc hd]
            exact ⟨_, rfl⟩
      | cons d x =>
        cases hd : p d with
        | true =>
          rw [foldedBy_ended hc hd, List.cons_append, List.cons_append, foldedBy_ended hc hd, List.cons_prefix_cons]
          refine ⟨rfl, ?_⟩
          unfold afterWord
          by_cases hnone : wordsOf p x = []
          · rw [if_pos hnone]
            exact List.nil_prefix
          · rw [if_neg hnone, if_neg (wordsOf_ne_nil_append hnone), List.prefix_append_right_inj]
            rw [foldedBy_separator hd, List.cons_append, foldedBy_separator hd] at ih
            exact ih
        | false =>
          rw [foldedBy_longer hc hd, List.cons_append, List.cons_append, foldedBy_longer hc hd, List.cons_prefix_cons]
          exact ⟨rfl, ih⟩

/-- The words at the end of a text are at the end of its words. -/
theorem foldedBy_end (sep x y : List α) : foldedBy p sep y <:+ foldedBy p sep (x ++ y) := by
  have hcons : ∀ c rest, foldedBy p sep rest <:+ foldedBy p sep (c :: rest) := by
    intro c rest
    cases hc : p c with
    | true =>
      exact (foldedBy_separator hc).symm ▸ List.suffix_rfl
    | false =>
      cases rest with
      | nil => exact List.nil_suffix
      | cons d rest =>
        cases hd : p d with
        | true =>
          rw [foldedBy_ended hc hd, foldedBy_separator hd]
          unfold afterWord
          by_cases hnone : wordsOf p rest = []
          · unfold foldedBy
            rw [hnone]
            exact List.nil_suffix
          · rw [if_neg hnone]
            exact (List.suffix_append _ _).trans (List.suffix_cons _ _)
        | false =>
          rw [foldedBy_longer hc hd]
          exact List.suffix_cons _ _
  induction x with
  | nil => exact List.suffix_rfl
  | cons c x ih => exact ih.trans (hcons c (x ++ y))

theorem foldedBy_within {v : List α} (sep : List α) (h : v <:+: text) : foldedBy p sep v <:+: foldedBy p sep text := by
  obtain ⟨x, y, rfl⟩ := h
  have hsuffix := foldedBy_end (p := p) sep x (v ++ y)
  rw [← List.append_assoc] at hsuffix
  exact (foldedBy_start sep v y).isInfix.trans hsuffix.isInfix

theorem foldedBy_of_start {v : List α} (sep : List α) (h : v <+: text) : foldedBy p sep v <+: foldedBy p sep text := by
  obtain ⟨y, rfl⟩ := h
  exact foldedBy_start sep v y

theorem foldedBy_of_end {v : List α} (sep : List α) (h : v <:+ text) : foldedBy p sep v <:+ foldedBy p sep text := by
  obtain ⟨x, rfl⟩ := h
  exact foldedBy_end sep x v

end

/-! ### Changing characters -/

/-- A change of characters keeps separators apart from what is none. -/
structure KeepsWords (p : α → Bool) (q : β → Bool) (f : α → List β) : Prop where
  ne_nil : ∀ c, f c ≠ []
  separator : ∀ c, p c = true → ∀ d ∈ f c, q d = true
  other : ∀ c, p c = false → ∀ d ∈ f c, q d = false

section
variable {p : α → Bool} {q : β → Bool} {f : α → List β} {sep text : List α}

theorem wordsOf_separators {s : List β} (h : ∀ d ∈ s, q d = true) (t : List β) : wordsOf q (s ++ t) = wordsOf q t := by
  induction s with
  | nil => rfl
  | cons d s ih =>
    rw [List.cons_append, wordsOf_separator (h d (.head _))]
    exact ih (fun e he => h e (.tail _ he))

theorem wordsOf_word {w : List β} (hne : w ≠ []) (h : ∀ d ∈ w, q d = false) : wordsOf q w = [w] := by
  induction w with
  | nil => exact absurd rfl hne
  | cons c w ih =>
    cases w with
    | nil => exact wordsOf_single (h c (.head _))
    | cons d w =>
      obtain ⟨word, words, hwords, hlonger⟩ := @wordsOf_longer _ _ _ _ w (h c (.head _)) (h d (.tail _ (.head _)))
      rw [ih (List.cons_ne_nil _ _) (fun e he => h e (.tail _ he)), List.cons.injEq] at hwords
      rw [hlonger, ← hwords.1, ← hwords.2]

theorem wordsOf_word_ended {w : List β} {d : β} (hne : w ≠ []) (h : ∀ d ∈ w, q d = false) (hd : q d = true) (t : List β) :
    wordsOf q (w ++ d :: t) = w :: wordsOf q t := by
  induction w with
  | nil => exact absurd rfl hne
  | cons c w ih =>
    cases w with
    | nil => exact wordsOf_ended (h c (.head _)) hd
    | cons e w =>
      obtain ⟨word, words, hwords, hlonger⟩ := @wordsOf_longer _ _ _ _ (w ++ d :: t) (h c (.head _)) (h e (.tail _ (.head _)))
      have hrest := ih (List.cons_ne_nil _ _) (fun e he => h e (.tail _ he))
      rw [List.cons_append, hwords, List.cons.injEq] at hrest
      rw [List.cons_append, List.cons_append, hlonger, hrest.1, hrest.2]

theorem wordsOf_word_longer {w t : List β} {d : β} (h : ∀ d ∈ w, q d = false) (hd : q d = false) :
    ∃ word words, wordsOf q (d :: t) = word :: words ∧ wordsOf q (w ++ d :: t) = (w ++ word) :: words := by
  induction w with
  | nil =>
    cases t with
    | nil => exact ⟨[d], [], wordsOf_single hd, wordsOf_single hd⟩
    | cons e t =>
      cases he : q e with
      | true => exact ⟨[d], wordsOf q t, wordsOf_ended hd he, wordsOf_ended hd he⟩
      | false =>
        obtain ⟨word, words, -, hlonger⟩ := @wordsOf_longer _ _ _ _ t hd he
        exact ⟨d :: word, words, hlonger, hlonger⟩
  | cons c w ih =>
    obtain ⟨word, words, hwords, hrest⟩ := ih (fun e he => h e (.tail _ he))
    refine ⟨word, words, hwords, ?_⟩
    cases w with
    | nil =>
      obtain ⟨word', words', hwords', hlonger⟩ := @wordsOf_longer _ _ _ _ t (h c (.head _)) hd
      rw [hwords, List.cons.injEq] at hwords'
      rw [List.singleton_append, hlonger, ← hwords'.1, ← hwords'.2]
      rfl
    | cons e w =>
      obtain ⟨word', words', hwords', hlonger⟩ := @wordsOf_longer _ _ _ _ (w ++ d :: t) (h c (.head _)) (h e (.tail _ (.head _)))
      rw [List.cons_append, hwords', List.cons.injEq] at hrest
      rw [List.cons_append, List.cons_append, hlonger, hrest.1, hrest.2]
      rfl

/-- The words of the changed text are the changed words. -/
theorem KeepsWords.words (h : KeepsWords p q f) (text : List α) :
    wordsOf q (text.flatMap f) = (wordsOf p text).map (·.flatMap f) := by
  induction text with
  | nil => rfl
  | cons c text ih =>
    rw [List.flatMap_cons]
    cases hc : p c with
    | true => rw [wordsOf_separators (h.separator c hc), wordsOf_separator hc, ih]
    | false =>
      have hword := h.other c hc
      cases text with
      | nil =>
        rw [List.flatMap_nil, List.append_nil, wordsOf_word (h.ne_nil c) hword, wordsOf_single hc]
        simp
      | cons d text =>
        obtain ⟨e, more, hmore⟩ := List.exists_cons_of_ne_nil (h.ne_nil d)
        cases hd : p d with
        | true =>
          have he : q e = true := h.separator d hd e (by rw [hmore]; exact .head _)
          rw [List.flatMap_cons, hmore, List.cons_append, wordsOf_separator he] at ih
          rw [List.flatMap_cons, hmore, List.cons_append, wordsOf_word_ended (h.ne_nil c) hword he, ih,
            wordsOf_ended hc hd, wordsOf_separator hd]
          simp
        | false =>
          have he : q e = false := h.other d hd e (by rw [hmore]; exact .head _)
          rw [List.flatMap_cons, hmore, List.cons_append] at ih ⊢
          obtain ⟨word, words, hwords, hlonger⟩ := wordsOf_word_longer (t := more ++ text.flatMap f) hword he
          obtain ⟨word', words', hwords', hlonger'⟩ := @wordsOf_longer _ _ _ _ text hc hd
          rw [hwords, hwords', List.map_cons, List.cons.injEq] at ih
          rw [hlonger, hlonger', List.map_cons, ih.1, ih.2, List.flatMap_cons]

theorem intercalate_flatMap (sep : List α) (words : List (List α)) :
    (sep.intercalate words).flatMap f = (sep.flatMap f).intercalate (words.map (·.flatMap f)) := by
  induction words with
  | nil => rfl
  | cons word words ih =>
    rw [intercalate_cons, List.map_cons, intercalate_cons, List.flatMap_append]
    by_cases hnone : words = []
    · subst hnone
      rfl
    · rw [if_neg hnone, if_neg (by simpa using hnone), List.flatMap_append, ih]

/-- Changing the words written again is writing the changed words. -/
theorem KeepsWords.folded (h : KeepsWords p q f) (sep text : List α) :
    (foldedBy p sep text).flatMap f = foldedBy q (sep.flatMap f) (text.flatMap f) := by
  unfold foldedBy
  rw [intercalate_flatMap, h.words]

end

end Motte.Foundation
