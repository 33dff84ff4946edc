import Motte.Foundation.Op

/-! Twin computations.

Two computations are twins when they raise the same, or give values that are related. A
sequence is one when its parts are. -/
namespace Motte.Foundation
variable {ε α β γ δ : Type}

/-- The computations raise the same, or give values that are related. -/
inductive Twin (R : α → β → Prop) : Except ε α → Except ε β → Prop
  | raised (e : ε) : Twin R (.error e) (.error e)
  | given {a : α} {b : β} (h : R a b) : Twin R (.ok a) (.ok b)

namespace Twin
variable {R : α → β → Prop} {S : γ → δ → Prop}

theorem pure {a : α} {b : β} (h : R a b) : Twin R (Pure.pure a : Except ε α) (Pure.pure b) := .given h

/-- What is done with related values gives twins when each step does. -/
theorem bind {x : Except ε α} {y : Except ε β} {f : α → Except ε γ} {g : β → Except ε δ} (h : Twin R x y)
    (next : ∀ a b, R a b → Twin S (f a) (g b)) : Twin S (x >>= f) (y >>= g) := by
  cases h with
  | raised e => exact .raised e
  | given hr => exact next _ _ hr

/-- The first part may be one and the same. -/
theorem same {x : Except ε α} {f : α → Except ε γ} {g : α → Except ε δ} (next : ∀ a, x = .ok a → Twin S (f a) (g a)) :
    Twin S (x >>= f) (x >>= g) := by
  cases x with
  | error e => exact .raised e
  | ok a => exact next a rfl

theorem mapError {ε' : Type} {x : Except ε α} {y : Except ε β} (h : Twin R x y) (f : ε → ε') :
    Twin R (x.mapError f) (y.mapError f) := by
  cases h with
  | raised e => exact .raised (f e)
  | given hr => exact .given hr

theorem mapM {f : γ → Except ε α} {g : γ → Except ε β} (each : ∀ c, Twin R (f c) (g c)) (cs : List γ) :
    Twin (List.Forall₂ R) (cs.mapM f) (cs.mapM g) := by
  induction cs with
  | nil => exact .given .nil
  | cons c cs ih =>
    rw [List.mapM_cons, List.mapM_cons]
    exact (each c).bind (fun a b h => ih.bind (fun as bs hs => .pure (.cons h hs)))

end Twin

end Motte.Foundation
