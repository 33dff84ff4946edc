import Mathlib.Data.List.TakeWhile

/-! Texts that show where they end.

Two texts are apart when, whatever follows each of them, the two wholes are equal only if
the texts are. A text may ask that what follows does not begin with a character that
would carry it on, as a numeral does. Lists of such texts, written with a character
between them and one at the end, are apart again. -/
namespace Motte.Foundation
variable {α : Type*} {more : α → Prop} {x y x' y' : List α}

/-- The text does not begin with a character of the kind. -/
def Stops (more : α → Prop) (rest : List α) : Prop := ∀ c ∈ rest.head?, ¬ more c

theorem stops_cons {c : α} {rest : List α} (h : ¬ more c) : Stops more (c :: rest) := by
  intro d hd
  cases hd
  exact h

/-- What follows the texts does not make one of them look like the other. -/
def Apart (more : α → Prop) (x y : List α) : Prop :=
  ∀ r r', Stops more r → Stops more r' → x ++ r = y ++ r' → x = y ∧ r = r'

/-- Texts of these characters alone end where the characters do. -/
theorem apart_of_all [DecidablePred more] (hx : ∀ c ∈ x, more c) (hy : ∀ c ∈ y, more c) : Apart more x y := by
  have htake : ∀ t r : List α, (∀ c ∈ t, more c) → Stops more r → (t ++ r).takeWhile (fun c => more c) = t := by
    intro t r ht hr
    rw [List.takeWhile_append_of_pos (fun c hc => decide_eq_true (ht c hc))]
    have hnil : r.takeWhile (fun c => more c) = [] := by
      cases r with
      | nil => rfl
      | cons d r => exact List.takeWhile_cons_of_neg (by simpa using hr d rfl)
    rw [hnil, List.append_nil]
  intro r r' hr hr' heq
  have hsame := congrArg (List.takeWhile (fun c => more c)) heq
  rw [htake x r hx hr, htake y r' hy hr'] at hsame
  refine ⟨hsame, ?_⟩
  rw [hsame] at heq
  exact List.append_cancel_left heq

/-- A text with a mark after it and another text behind the mark. -/
theorem Apart.marked {c : α} (hx : ∀ r r', x ++ c :: r = y ++ c :: r' → x = y ∧ r = r') (hy : Apart more x' y') :
    Apart more (x ++ c :: x') (y ++ c :: y') := by
  intro r r' hr hr' heq
  rw [List.append_assoc, List.append_assoc, List.cons_append, List.cons_append] at heq
  obtain ⟨hfirst, hrest⟩ := hx _ _ heq
  obtain ⟨hsecond, hend⟩ := hy r r' hr hr' hrest
  exact ⟨by rw [hfirst, hsecond], hend⟩

/-! ### Lists of texts -/

section
variable {xs ys : List (List α)} {sep close : α} {r r' : List α}

theorem stops_tails (hsep : ¬ more sep) (hclose : ¬ more close) :
    Stops more (xs.flatMap (sep :: ·) ++ close :: r) := by
  cases xs with
  | nil => exact stops_cons hclose
  | cons x xs => exact stops_cons hsep

/-- Texts with a mark before each, and another mark at the end. -/
theorem tails_cancel (hmarks : sep ≠ close) (hsep : ¬ more sep) (hclose : ¬ more close)
    (h : ∀ x ∈ xs, ∀ y ∈ ys, Apart more x y)
    (heq : xs.flatMap (sep :: ·) ++ close :: r = ys.flatMap (sep :: ·) ++ close :: r') : xs = ys ∧ r = r' := by
  induction xs generalizing ys with
  | nil =>
    cases ys with
    | nil => exact ⟨rfl, (List.cons.inj heq).2⟩
    | cons y ys => exact absurd (List.cons.inj heq).1.symm hmarks
  | cons x xs ih =>
    cases ys with
    | nil => exact absurd (List.cons.inj heq).1 hmarks
    | cons y ys =>
      simp only [List.flatMap_cons, List.cons_append, List.append_assoc, List.cons.injEq, true_and] at heq
      obtain ⟨hfirst, hrest⟩ := h x (.head _) y (.head _) _ _ (stops_tails hsep hclose) (stops_tails hsep hclose) heq
      obtain ⟨hothers, hend⟩ := ih (fun x hx y hy => h x (.tail _ hx) y (.tail _ hy)) hrest
      exact ⟨by rw [hfirst, hothers], hend⟩

/-- Texts with a mark between them, none of which begins with the mark at the end. -/
theorem separated_cancel (hmarks : sep ≠ close) (hsep : ¬ more sep) (hclose : ¬ more close)
    (hbegin : ∀ x ∈ xs ++ ys, ∃ c rest, x = c :: rest ∧ c ≠ close) (h : ∀ x ∈ xs, ∀ y ∈ ys, Apart more x y)
    (heq : xs.headD [] ++ xs.tail.flatMap (sep :: ·) ++ close :: r =
      ys.headD [] ++ ys.tail.flatMap (sep :: ·) ++ close :: r') : xs = ys ∧ r = r' := by
  cases xs with
  | nil =>
    cases ys with
    | nil => exact ⟨rfl, (List.cons.inj heq).2⟩
    | cons y ys =>
      obtain ⟨c, rest, rfl, hc⟩ := hbegin y (.head _)
      exact absurd (List.cons.inj heq).1.symm hc
  | cons x xs =>
    cases ys with
    | nil =>
      obtain ⟨c, rest, rfl, hc⟩ := hbegin x (.head _)
      exact absurd (List.cons.inj heq).1 hc
    | cons y ys =>
      simp only [List.headD_cons, List.tail_cons, List.append_assoc] at heq
      obtain ⟨hfirst, hrest⟩ := h x (.head _) y (.head _) _ _ (stops_tails hsep hclose) (stops_tails hsep hclose) heq
      obtain ⟨hothers, hend⟩ := tails_cancel hmarks hsep hclose (fun x hx y hy => h x (.tail _ hx) y (.tail _ hy)) hrest
      exact ⟨by rw [hfirst, hothers], hend⟩

end

end Motte.Foundation
