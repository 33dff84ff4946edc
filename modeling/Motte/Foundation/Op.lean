import Mathlib.Data.List.Forall2
import Mathlib.Data.List.Perm.Basic
import Mathlib.Tactic.Common

/-! Handlers that may raise.

A handler reads and changes a state, then returns a value or raises. What it
leaves behind when it raises is part of its meaning: a handler that keeps its
state in plain variables leaves whatever it had written so far, while one that
runs inside a database transaction leaves the state it found (`atomically`).
Both are written here in one monad, so that the two kinds can be compared line
by line. The rules below read a finished run of a handler backwards, one
statement at a time. -/
namespace Motte.Foundation

/-- A handler over the state `σ`, raising `ε` or returning `α`; either way it leaves a state. -/
def Op (σ ε α : Type) : Type := σ → Except ε α × σ

namespace Op
variable {σ ε α β : Type}

protected def pure (a : α) : Op σ ε α := fun s => (.ok a, s)

protected def bind (x : Op σ ε α) (f : α → Op σ ε β) : Op σ ε β := fun s =>
  match x s with
  | (.ok a, t) => f a t
  | (.error e, t) => (.error e, t)

instance : Monad (Op σ ε) where
  pure := Op.pure
  bind := Op.bind

/-- A computation that does not touch the state. -/
def lift (x : Except ε α) : Op σ ε α := fun s => (x, s)

/-- Read from the state. -/
def gets (f : σ → α) : Op σ ε α := fun s => (.ok (f s), s)

def modify (f : σ → σ) : Op σ ε Unit := fun s => (.ok (), f s)

def raise (e : ε) : Op σ ε α := fun s => (.error e, s)

/-- A transaction: what a raising handler had written is rolled back. -/
def atomically (x : Op σ ε α) : Op σ ε α := fun s =>
  match x s with
  | (.ok a, t) => (.ok a, t)
  | (.error e, _) => (.error e, s)

/-- A handler of a part of the state. -/
def zoom {τ : Type} (part : σ → τ) (put : σ → τ → σ) (x : Op τ ε α) : Op σ ε α := fun s =>
  ((x (part s)).1, put s (x (part s)).2)

/-- Hand on an error as a value. -/
def result (x : Op σ ε α) : Op σ ε (Except ε α) := fun s => (.ok (x s).1, (x s).2)

/-- Report an error as another. -/
def mapErr {δ : Type} (f : ε → δ) (x : Op σ ε α) : Op σ δ α := fun s =>
  match x s with
  | (.ok a, t) => (.ok a, t)
  | (.error e, t) => (.error (f e), t)

end Op

/-! ### Checks that raise -/

/-- Raise unless the condition holds. -/
def ensure {ε : Type} (p : Prop) [Decidable p] (e : ε) : Except ε Unit :=
  if p then .ok () else .error e

section Checks
variable {ε α β : Type} {p : Prop} [Decidable p] {e : ε}

@[simp] theorem ensure_ok_iff {u : Unit} : ensure p e = .ok u ↔ p := by
  unfold ensure
  split <;> simp_all

@[simp] theorem ensure_error_iff {e' : ε} : ensure p e = .error e' ↔ ¬p ∧ e = e' := by
  unfold ensure
  split <;> simp_all

@[simp] theorem except_bind_ok_iff {x : Except ε α} {f : α → Except ε β} {b : β} :
    (x >>= f) = .ok b ↔ ∃ a, x = .ok a ∧ f a = .ok b := by
  cases x <;> simp [bind, Except.bind]

theorem except_bind_error_iff {x : Except ε α} {f : α → Except ε β} {e : ε} :
    (x >>= f) = .error e ↔ x = .error e ∨ ∃ a, x = .ok a ∧ f a = .error e := by
  cases x <;> simp [bind, Except.bind]

@[simp] theorem guard_eq_some_iff {u : Unit} : (guard p : Option Unit) = some u ↔ p := by
  by_cases h : p <;> simp [h, guard]

@[simp] theorem except_pure_ok_iff {a b : α} : (pure a : Except ε α) = .ok b ↔ a = b := by
  simp [pure, Except.pure]

theorem mapM_eq_some_iff {f : α → Option β} {xs : List α} {ys : List β} :
    xs.mapM f = some ys ↔ List.Forall₂ (fun x y => f x = some y) xs ys := by
  induction xs generalizing ys with
  | nil =>
    rw [List.mapM_nil, List.forall₂_nil_left_iff]
    exact ⟨fun h => (Option.some_inj.1 h).symm, fun h => h ▸ rfl⟩
  | cons x rest ih =>
    simp only [List.mapM_cons, Option.bind_eq_bind, Option.bind_eq_some_iff, Option.pure_def, Option.some.injEq, ih,
      List.forall₂_cons_left_iff]
    constructor
    · rintro ⟨y, hy, ys', hys', rfl⟩
      exact ⟨y, ys', hy, hys', rfl⟩
    · rintro ⟨y, ys', hy, hys', rfl⟩
      exact ⟨y, hy, ys', hys', rfl⟩

theorem exists_of_forall₂ {α β : Type} {R : α → β → Prop} {xs : List α} {ys : List β} (h : List.Forall₂ R xs ys) {x : α}
    (hx : x ∈ xs) : ∃ y ∈ ys, R x y := by
  induction h with
  | nil => cases hx
  | cons hr _ ih =>
    rcases List.mem_cons.1 hx with rfl | hx
    · exact ⟨_, List.mem_cons_self .., hr⟩
    · obtain ⟨y, hy, hr⟩ := ih hx
      exact ⟨y, List.mem_cons_of_mem _ hy, hr⟩

theorem source_of_mapM {f : α → Option β} {xs : List α} {ys : List β} (h : xs.mapM f = some ys) {y : β} (hy : y ∈ ys) :
    ∃ x ∈ xs, f x = some y :=
  exists_of_forall₂ (mapM_eq_some_iff.1 h).flip hy

theorem image_of_mapM {f : α → Option β} {xs : List α} {ys : List β} (h : xs.mapM f = some ys) {x : α} (hx : x ∈ xs) :
    ∃ y ∈ ys, f x = some y :=
  exists_of_forall₂ (mapM_eq_some_iff.1 h) hx

theorem mapM_ok {f : α → Except ε β} {xs : List α} {ys : List β} (h : xs.mapM f = .ok ys) :
    List.Forall₂ (fun x y => f x = .ok y) xs ys := by
  induction xs generalizing ys with
  | nil =>
    simp only [List.mapM_nil, except_pure_ok_iff] at h
    rw [← h]
    exact .nil
  | cons x xs ih =>
    simp only [List.mapM_cons, except_bind_ok_iff, except_pure_ok_iff] at h
    obtain ⟨y, hy, ys', hys, rfl⟩ := h
    exact .cons hy (ih hys)

theorem mapM_eq_ok_iff {f : α → Except ε β} {xs : List α} {ys : List β} :
    xs.mapM f = .ok ys ↔ List.Forall₂ (fun x y => f x = .ok y) xs ys := by
  constructor
  · exact mapM_ok
  · intro h
    induction h with
    | nil => rfl
    | cons hx _ ih => simp only [List.mapM_cons, hx, ih, bind, Except.bind, pure, Except.pure]

/-- What every step of a fold keeps, the fold keeps. -/
theorem foldlM_keeps {P : β → Prop} {f : β → α → Except ε β} (step : ∀ b a b', P b → f b a = .ok b' → P b') {xs : List α} {b b' : β}
    (hb : P b) (h : xs.foldlM f b = .ok b') : P b' := by
  induction xs generalizing b with
  | nil =>
    rw [List.foldlM_nil, except_pure_ok_iff] at h
    exact h ▸ hb
  | cons x xs ih =>
    rw [List.foldlM_cons, except_bind_ok_iff] at h
    obtain ⟨next, hnext, h⟩ := h
    exact ih (step b x next hb hnext) h

/-- A list in another order is mapped to the results in another order. -/
theorem mapM_perm {f : α → Except ε β} {xs us : List α} {ys : List β} (hperm : us.Perm xs) (h : xs.mapM f = .ok ys) :
    ∃ zs, us.mapM f = .ok zs ∧ zs.Perm ys := by
  obtain ⟨zs, hzs, hys⟩ := List.perm_comp_forall₂ hperm (mapM_ok h)
  exact ⟨zs, mapM_eq_ok_iff.2 hzs, hys⟩

end Checks

namespace Op
variable {σ ε α β : Type}

/-! ### Reading a run backwards -/

variable {x : Op σ ε α} {f : α → Op σ ε β} {s t : σ} {a : α} {b : β} {e : ε}

@[simp] theorem pure_apply : (pure a : Op σ ε α) s = (.ok a, s) := rfl

@[simp] theorem lift_apply (y : Except ε α) : (lift y : Op σ ε α) s = (y, s) := rfl

theorem lift_of_ok {y : Except ε α} (h : y = .ok a) : (lift y : Op σ ε α) s = (.ok a, s) := by
  rw [lift_apply, h]

theorem lift_of_error {y : Except ε α} (h : y = .error e) : (lift y : Op σ ε α) s = (.error e, s) := by
  rw [lift_apply, h]

theorem lift_ensure_of {p : Prop} [Decidable p] (h : p) : (lift (ensure p e) : Op σ ε Unit) s = (.ok (), s) := by
  rw [lift_apply, ensure, if_pos h]

theorem lift_ensure_of_not {p : Prop} [Decidable p] (h : ¬p) :
    (lift (ensure p e) : Op σ ε Unit) s = (.error e, s) := by
  rw [lift_apply, ensure, if_neg h]

@[simp] theorem gets_apply (g : σ → α) : (gets g : Op σ ε α) s = (.ok (g s), s) := rfl

@[simp] theorem modify_apply (g : σ → σ) : (modify g : Op σ ε Unit) s = (.ok (), g s) := rfl

@[simp] theorem raise_apply : (raise e : Op σ ε α) s = (.error e, s) := rfl

theorem bind_of_ok {u : σ} (h : x s = (.ok a, u)) : (x >>= f) s = f a u := by
  show Op.bind x f s = f a u
  simp only [Op.bind, h]

theorem bind_of_error {u : σ} (h : x s = (.error e, u)) : (x >>= f) s = (.error e, u) := by
  show Op.bind x f s = _
  simp only [Op.bind, h]

/-- A sequence returned: so did its first statement, and the rest from there. -/
theorem bind_ok_iff :
    (x >>= f) s = (.ok b, t) ↔ ∃ a u, x s = (.ok a, u) ∧ f a u = (.ok b, t) := by
  show Op.bind x f s = _ ↔ _
  unfold Op.bind
  constructor
  · intro h
    split at h
    · rename_i a u hx
      exact ⟨a, u, hx, h⟩
    · cases h
  · rintro ⟨a, u, hx, hf⟩
    simp only [hx, hf]

theorem bind_pure_result {g : α → β} : ((x >>= fun a => pure (g a)) s).1 = (x s).1.map g := by
  rcases h : x s with ⟨e | a, t⟩
  · rw [bind_of_error h]
    rfl
  · rw [bind_of_ok h]
    rfl

theorem bind_pure_state {g : α → β} : ((x >>= fun a => pure (g a)) s).2 = (x s).2 := by
  rcases h : x s with ⟨e | a, t⟩
  · rw [bind_of_error h]
  · rw [bind_of_ok h]
    rfl

theorem bind_pure_apply {g : α → β} : (x >>= fun a => pure (g a)) s = ((x s).1.map g, (x s).2) :=
  Prod.ext bind_pure_result bind_pure_state

theorem atomically_ok_iff : atomically x s = (.ok a, t) ↔ x s = (.ok a, t) := by
  unfold atomically
  constructor
  · intro h
    split at h
    · rename_i hx
      rw [hx, h]
    · cases h
  · intro h
    simp only [h]

theorem atomically_of_ok (h : x s = (.ok a, t)) : atomically x s = (.ok a, t) :=
  atomically_ok_iff.2 h

theorem atomically_of_error (h : x s = (.error e, t)) : atomically x s = (.error e, s) := by
  simp only [atomically, h]

/-- A handler that leaves what it found when it raises is a transaction already. -/
theorem atomically_eq (h : ∀ e t, x s = (.error e, t) → t = s) : atomically x s = x s := by
  rcases hx : x s with ⟨e | a, t⟩
  · rw [atomically_of_error hx, h e t hx]
  · exact atomically_of_ok hx

/-! ### What a handler guarantees

`wp x s ok err` holds when running `x` from `s` either returns a value and leaves
a state that `ok` accepts, or raises and leaves a state that `err` accepts. The
rules compute it statement by statement. -/

section Guarantees
variable {ok : α → σ → Prop} {err : ε → σ → Prop} {okb : β → σ → Prop}

def wp (x : Op σ ε α) (s : σ) (ok : α → σ → Prop) (err : ε → σ → Prop) : Prop :=
  match x s with
  | (.ok a, t) => ok a t
  | (.error e, t) => err e t

theorem wp_of_ok (h : x s = (.ok a, t)) : wp x s ok err ↔ ok a t := by
  simp only [wp, h]

theorem wp_of_error (h : x s = (.error e, t)) : wp x s ok err ↔ err e t := by
  simp only [wp, h]

@[simp] theorem wp_pure : wp (pure a) s ok err ↔ ok a s := Iff.rfl

@[simp] theorem wp_raise : wp (raise e) s ok err ↔ err e s := Iff.rfl

@[simp] theorem wp_modify {g : σ → σ} {ok : Unit → σ → Prop} :
    wp (modify g) s ok err ↔ ok () (g s) := Iff.rfl

@[simp] theorem wp_gets {g : σ → α} : wp (gets g) s ok err ↔ ok (g s) s := Iff.rfl

@[simp] theorem wp_lift {y : Except ε α} :
    wp (lift y) s ok err ↔ (∀ a, y = .ok a → ok a s) ∧ ∀ e, y = .error e → err e s := by
  cases y <;> simp [wp, lift]

@[simp] theorem wp_bind : wp (x >>= f) s okb err ↔ wp x s (fun a t => wp (f a) t okb err) err := by
  rcases h : x s with ⟨e | a, t⟩
  · rw [wp_of_error (bind_of_error h), wp_of_error h]
  · rw [wp_of_ok h]
    unfold wp
    rw [bind_of_ok h]

theorem wp_atomically : wp (atomically x) s ok err ↔ wp x s ok (fun e _ => err e s) := by
  rcases h : x s with ⟨e | a, t⟩
  · rw [wp_of_error (atomically_of_error h), wp_of_error h]
  · rw [wp_of_ok (atomically_of_ok h), wp_of_ok h]

@[simp] theorem wp_zoom {τ : Type} {part : σ → τ} {put : σ → τ → σ} {y : Op τ ε α} :
    wp (zoom part put y) s ok err ↔
      wp y (part s) (fun a t => ok a (put s t)) (fun e t => err e (put s t)) := by
  rcases h : y (part s) with ⟨e | a, t⟩ <;> simp [wp, zoom, h]

@[simp] theorem wp_mapErr {δ : Type} {g : ε → δ} {err : δ → σ → Prop} :
    wp (mapErr g x) s ok err ↔ wp x s ok (fun e t => err (g e) t) := by
  rcases h : x s with ⟨e | a, t⟩ <;> simp [wp, mapErr, h]

@[simp] theorem wp_result_iff {ok : Except ε α → σ → Prop} :
    wp (result x) s ok err ↔ wp x s (fun a t => ok (.ok a) t) (fun e t => ok (.error e) t) := by
  rcases h : x s with ⟨e | a, t⟩ <;> simp [wp, result, h]

theorem wp_ite {p : Prop} [Decidable p] {y : Op σ ε α} (hx : p → wp x s ok err) (hy : ¬p → wp y s ok err) :
    wp (if p then x else y) s ok err := by
  split
  · exact hx ‹_›
  · exact hy ‹_›

theorem wp_mono {ok' : α → σ → Prop} {err' : ε → σ → Prop} (h : wp x s ok err)
    (hok : ∀ a t, ok a t → ok' a t) (herr : ∀ e t, err e t → err' e t) : wp x s ok' err' := by
  rcases hx : x s with ⟨e | a, t⟩
  · rw [wp_of_error hx] at h ⊢
    exact herr e t h
  · rw [wp_of_ok hx] at h ⊢
    exact hok a t h

theorem wp_and {ok' : α → σ → Prop} {err' : ε → σ → Prop} (h : wp x s ok err) (h' : wp x s ok' err') :
    wp x s (fun a t => ok a t ∧ ok' a t) (fun e t => err e t ∧ err' e t) := by
  rcases hx : x s with ⟨e | a, t⟩
  · rw [wp_of_error hx] at *
    exact ⟨h, h'⟩
  · rw [wp_of_ok hx] at *
    exact ⟨h, h'⟩

theorem wp_always (hok : ∀ a t, ok a t) (herr : ∀ e t, err e t) : wp x s ok err := by
  rcases hx : x s with ⟨e | a, t⟩
  · exact (wp_of_error hx).2 (herr e t)
  · exact (wp_of_ok hx).2 (hok a t)

/-- What holds of the state however the handler ends. -/
theorem wp_of_state {Q : σ → Prop} (h : Q (x s).2) : wp x s (fun _ t => Q t) (fun _ t => Q t) := by
  rcases hx : x s with ⟨e | a, t⟩
  · rw [hx] at h
    exact (wp_of_error hx).2 h
  · rw [hx] at h
    exact (wp_of_ok hx).2 h

theorem wp_state {Q : σ → Prop} (h : wp x s (fun _ t => Q t) (fun _ t => Q t)) : Q (x s).2 := by
  rcases hx : x s with ⟨e | a, t⟩
  · rwa [wp_of_error hx] at h
  · rwa [wp_of_ok hx] at h

/-- What holds of the state when the handler returned. -/
theorem wp_returned (h : wp x s ok err) (returned : (x s).1 = .ok a) : ok a (x s).2 := by
  rcases hx : x s with ⟨e | a', t⟩
  · rw [hx] at returned
    cases returned
  · rw [wp_of_ok hx] at h
    rw [hx] at returned
    cases returned
    exact h

/-- The same for a handler whose value is wrapped. -/
theorem wp_returned_wrapped {g : α → β} (h : wp x s ok err) (returned : ((x >>= fun a => pure (g a)) s).1 = .ok b) :
    ∃ a, ok a ((x >>= fun a => pure (g a)) s).2 := by
  rw [bind_pure_result] at returned
  rw [bind_pure_state]
  rcases hx : (x s).1 with e | a
  · rw [hx] at returned
    cases returned
  · exact ⟨a, wp_returned h hx⟩

/-- What holds of the state when the handler raised. -/
theorem wp_raised (h : wp x s ok err) (raised : (x s).1 = .error e) : err e (x s).2 := by
  rcases hx : x s with ⟨e' | a, t⟩
  · rw [wp_of_error hx] at h
    rw [hx] at raised
    cases raised
    exact h
  · rw [hx] at raised
    cases raised

/-- What holds of the result however the handler ends. -/
theorem wp_result {y : Except ε α} (h : wp x s (fun a _ => .ok a = y) (fun e _ => .error e = y)) : (x s).1 = y := by
  rcases hx : x s with ⟨e | a, t⟩
  · rwa [wp_of_error hx] at h
  · rwa [wp_of_ok hx] at h

end Guarantees

end Op
end Motte.Foundation
