import Motte.Foundation.Op

/-! Computations that give a value.

Whether a computation that can raise gives a value is told from its parts: a sequence gives
one when its first part does and what follows does, and a traversal when every item does. -/
namespace Motte.Foundation
variable {ε α β : Type}

/-- The computation gives a value. -/
def Returns (x : Except ε α) : Prop := ∃ a, x = .ok a

theorem returns_ok (a : α) : Returns (.ok a : Except ε α) := ⟨a, rfl⟩

@[simp] theorem returns_pure (a : α) : Returns (pure a : Except ε α) := ⟨a, rfl⟩

theorem not_returns_error (e : ε) : ¬Returns (.error e : Except ε α) := fun ⟨_, h⟩ => nomatch h

theorem returns_bind {x : Except ε α} {f : α → Except ε β} : Returns (x >>= f) ↔ ∃ a, x = .ok a ∧ Returns (f a) := by
  simp only [Returns, except_bind_ok_iff]
  constructor
  · rintro ⟨b, a, ha, hb⟩
    exact ⟨a, ha, b, hb⟩
  · rintro ⟨a, ha, b, hb⟩
    exact ⟨b, a, ha, hb⟩

/-- What follows gives a value for every first part, or for none. -/
theorem returns_bind_and {x : Except ε α} {f : α → Except ε β} {q : Prop} (h : ∀ a, x = .ok a → (Returns (f a) ↔ q)) :
    Returns (x >>= f) ↔ Returns x ∧ q := by
  rw [returns_bind]
  constructor
  · rintro ⟨a, ha, hf⟩
    exact ⟨⟨a, ha⟩, (h a ha).1 hf⟩
  · rintro ⟨⟨a, ha⟩, hq⟩
    exact ⟨a, ha, (h a ha).2 hq⟩

theorem returns_map {x : Except ε α} {f : α → β} : Returns (x >>= fun a => pure (f a)) ↔ Returns x := by
  have h : Returns (x >>= fun a => pure (f a)) ↔ Returns x ∧ True := returns_bind_and (fun a _ => by simp)
  rw [h, and_true]

theorem returns_mapM {f : α → Except ε β} {xs : List α} : Returns (xs.mapM f) ↔ ∀ x ∈ xs, Returns (f x) := by
  induction xs with
  | nil => simp
  | cons x xs ih =>
    rw [List.mapM_cons, returns_bind_and (fun y _ => returns_map), ih, List.forall_mem_cons]

/-- A fold gives a value when each item does, whatever was gathered before it. -/
theorem returns_foldlM {f : β → α → Except ε β} {p : α → Prop} (each : ∀ b a, Returns (f b a) ↔ p a) (xs : List α) (b : β) :
    Returns (xs.foldlM f b) ↔ ∀ x ∈ xs, p x := by
  induction xs generalizing b with
  | nil => simp
  | cons x xs ih => rw [List.foldlM_cons, returns_bind_and (fun b' _ => ih b'), each, List.forall_mem_cons]

end Motte.Foundation
