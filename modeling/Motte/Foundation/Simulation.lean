import Motte.Foundation.Run

/-! Two handlers run side by side.

`sim x s y t ok err` holds when `x` from `s` and `y` from `t` end the same way:
both return, and `ok` accepts what they return and leave, or both raise, and
`err` accepts what they leave. The rules take the two apart statement by
statement while they run in step; where only one of them has a statement, it has
to be known to go through. -/
namespace Motte.Foundation

namespace Op

variable {σ τ ε α β γ : Type} {x : Op σ ε α} {s : σ} {y : Op τ ε β} {t : τ}
variable {ok : α → σ → β → τ → Prop} {err : σ → τ → Prop}

def sim (x : Op σ ε α) (s : σ) (y : Op τ ε β) (t : τ) (ok : α → σ → β → τ → Prop) (err : σ → τ → Prop) :
    Prop :=
  match (x s).1, (y t).1 with
  | .ok a, .ok b => ok a (x s).2 b (y t).2
  | .error _, .error _ => err (x s).2 (y t).2
  | _, _ => False

theorem sim_returns {a : α} {b : β} {s' : σ} {t' : τ} (hx : x s = (.ok a, s')) (hy : y t = (.ok b, t'))
    (h : ok a s' b t') : sim x s y t ok err := by
  simp only [sim, hx, hy]
  exact h

theorem sim_raises {e e' : ε} {s' : σ} {t' : τ} (hx : x s = (.error e, s')) (hy : y t = (.error e', t'))
    (h : err s' t') : sim x s y t ok err := by
  simp only [sim, hx, hy]
  exact h

/-- The two ways to end side by side. -/
theorem sim.cases (h : sim x s y t ok err) :
    (∃ a s' b t', x s = (.ok a, s') ∧ y t = (.ok b, t') ∧ ok a s' b t') ∨
      ∃ e s' e' t', x s = (.error e, s') ∧ y t = (.error e', t') ∧ err s' t' := by
  unfold sim at h
  rcases hx : x s with ⟨e | a, s'⟩
  · rcases hy : y t with ⟨e' | b, t'⟩
    · rw [hx, hy] at h
      exact .inr ⟨e, s', e', t', rfl, rfl, h⟩
    · rw [hx, hy] at h
      exact h.elim
  · rcases hy : y t with ⟨e' | b, t'⟩
    · rw [hx, hy] at h
      exact h.elim
    · rw [hx, hy] at h
      exact .inl ⟨a, s', b, t', rfl, rfl, h⟩

theorem sim_mono {ok' : α → σ → β → τ → Prop} {err' : σ → τ → Prop} (h : sim x s y t ok err)
    (hok : ∀ a s b t, ok a s b t → ok' a s b t) (herr : ∀ s t, err s t → err' s t) : sim x s y t ok' err' := by
  rcases h.cases with ⟨a, s', b, t', hx, hy, h⟩ | ⟨e, s', e', t', hx, hy, h⟩
  · exact sim_returns hx hy (hok a s' b t' h)
  · exact sim_raises hx hy (herr s' t' h)

/-- What the second guarantees by itself. -/
theorem sim_and_right {okb : β → τ → Prop} {errb : ε → τ → Prop} (h : sim x s y t ok err) (hy : wp y t okb errb) :
    sim x s y t (fun a s' b t' => ok a s' b t' ∧ okb b t') (fun s' t' => err s' t' ∧ ∃ e, errb e t') := by
  rcases h.cases with ⟨a, s', b, t', hx, hyt, h⟩ | ⟨e, s', e', t', hx, hyt, h⟩
  · exact sim_returns hx hyt ⟨h, (wp_of_ok hyt).1 hy⟩
  · exact sim_raises hx hyt ⟨h, e', (wp_of_error hyt).1 hy⟩

theorem sim_bind {α' β' : Type} {f : α → Op σ ε α'} {g : β → Op τ ε β'} {ok : α' → σ → β' → τ → Prop}
    (h : sim x s y t (fun a s' b t' => sim (f a) s' (g b) t' ok err) err) :
    sim (x >>= f) s (y >>= g) t ok err := by
  rcases h.cases with ⟨a, s', b, t', hx, hy, h⟩ | ⟨e, s', e', t', hx, hy, h⟩
  · unfold sim
    rw [bind_of_ok hx, bind_of_ok hy]
    exact h
  · exact sim_raises (bind_of_error hx) (bind_of_error hy) h

theorem sim_pure {a : α} {b : β} (h : ok a s b t) :
    sim (pure a : Op σ ε α) s (pure b : Op τ ε β) t ok err := h

theorem sim_raise {e e' : ε} (h : err s t) : sim (raise e : Op σ ε α) s (raise e' : Op τ ε β) t ok err := h

theorem sim_gets {p : σ → α} {q : τ → β} (h : ok (p s) s (q t) t) :
    sim (gets p : Op σ ε α) s (gets q : Op τ ε β) t ok err := h

theorem sim_modify {p : σ → σ} {q : τ → τ} {ok : Unit → σ → Unit → τ → Prop} (h : ok () (p s) () (q t)) :
    sim (modify p : Op σ ε Unit) s (modify q : Op τ ε Unit) t ok err := h

/-- A computation that both make. -/
theorem sim_lift {z : Except ε γ} {ok : γ → σ → γ → τ → Prop} (hok : ∀ c, z = .ok c → ok c s c t)
    (herr : ∀ e, z = .error e → err s t) : sim (lift z) s (lift z) t ok err := by
  cases z with
  | error e => exact herr e rfl
  | ok c => exact hok c rfl

/-- A check that both make, each in its own words. -/
theorem sim_ensure {p q : Prop} [Decidable p] [Decidable q] {e e' : ε} {ok : Unit → σ → Unit → τ → Prop}
    (same : p ↔ q) (hok : p → ok () s () t) (herr : ¬p → err s t) :
    sim (lift (ensure p e)) s (lift (ensure q e')) t ok err := by
  by_cases h : p
  · exact sim_returns (lift_ensure_of h) (lift_ensure_of (same.1 h)) (hok h)
  · exact sim_raises (lift_ensure_of_not h) (lift_ensure_of_not (fun hq => h (same.2 hq))) (herr h)

/-- Only the first is a transaction: the second must leave what it found when they raise. -/
theorem sim_atomically (h : sim x s y t ok (fun _ t' => err s t')) : sim (atomically x) s y t ok err := by
  rcases h.cases with ⟨a, s', b, t', hx, hy, h⟩ | ⟨e, s', e', t', hx, hy, h⟩
  · exact sim_returns (atomically_of_ok hx) hy h
  · exact sim_raises (atomically_of_error hx) hy h

theorem sim_zoom {σ' τ' : Type} {part : σ' → σ} {put : σ' → σ → σ'} {part' : τ' → τ} {put' : τ' → τ → τ'}
    {s : σ'} {t : τ'} {ok : α → σ' → β → τ' → Prop} {err : σ' → τ' → Prop}
    (h : sim x (part s) y (part' t) (fun a u b v => ok a (put s u) b (put' t v))
      (fun u v => err (put s u) (put' t v))) :
    sim (zoom part put x) s (zoom part' put' y) t ok err := by
  unfold sim zoom at *
  exact h

/-- A statement that only the first has. -/
theorem sim_left {f : α → Op σ ε γ} {a : α} {s' : σ} {ok : γ → σ → β → τ → Prop} (hx : x s = (.ok a, s'))
    (h : sim (f a) s' y t ok err) : sim (x >>= f) s y t ok err := by
  unfold sim
  rw [bind_of_ok hx]
  exact h

/-- A statement that only the second has. -/
theorem sim_right {g : β → Op τ ε γ} {b : β} {t' : τ} {ok : α → σ → γ → τ → Prop} (hy : y t = (.ok b, t'))
    (h : sim x s (g b) t' ok err) : sim x s (y >>= g) t ok err := by
  unfold sim
  rw [bind_of_ok hy]
  exact h

end Op

/-! ### Runs side by side -/

/-- Two answers, or two exceptions. -/
def Alike {ε δ α β : Type} (same : α → β → Prop) : Except ε α → Except δ β → Prop
  | .ok a, .ok b => same a b
  | .error _, .error _ => True
  | _, _ => False

instance {ε δ α β : Type} (same : α → β → Prop) [∀ a b, Decidable (same a b)] (x : Except ε α) (y : Except δ β) :
    Decidable (Alike same x y) :=
  match x, y with
  | .ok a, .ok b => inferInstanceAs (Decidable (same a b))
  | .error _, .error _ => .isTrue trivial
  | .ok _, .error _ | .error _, .ok _ => .isFalse id

/-- Two systems that answer each request alike, and stay a system and its image, answer every run alike. -/
theorem replies_alike {ρ σ τ ε α β : Type} {serve : ρ → Op σ ε α} {serve' : ρ → Op τ ε β} {image : σ → τ}
    {Rule : σ → ρ → Prop} {I : σ → Prop} {same : α → β → Prop}
    (step : ∀ s r, I s → Rule s r → Op.sim (serve' r) (image s) (serve r) s (fun b t a s' => same a b ∧ t = image s')
      (fun t s' => t = image s'))
    (keeps : ∀ s r, I s → I (serve r s).2) {s : σ} (hs : I s) {requests : List ρ}
    (along : Along (fun r s => (serve r s).2) Rule s requests) :
    List.Forall₂ (Alike same) (replies serve s requests) (replies serve' (image s) requests) := by
  induction requests generalizing s with
  | nil => exact .nil
  | cons r rest ih =>
    have next := keeps s r hs
    have later : Along (fun r s => (serve r s).2) Rule (serve r s).2 rest := along.2
    rcases (step s r hs along.1).cases with ⟨b, t, a, s', ht, hs', agree, rfl⟩ | ⟨e, t, e', s', ht, hs', rfl⟩
    · rw [hs'] at next later
      rw [replies, replies, ht, hs']
      exact .cons agree (ih next later)
    · rw [hs'] at next later
      rw [replies, replies, ht, hs']
      exact .cons trivial (ih next later)

/-- Two systems that answer each request alike, and stay related, answer every run alike. -/
theorem replies_related {ρ σ τ ε α β : Type} {serve : ρ → Op σ ε α} {serve' : ρ → Op τ ε β} {R : σ → τ → Prop}
    {Rule : σ → ρ → Prop} {same : α → β → Prop}
    (step : ∀ s t r, R s t → Rule s r →
      Op.sim (serve' r) t (serve r) s (fun b t' a s' => same a b ∧ R s' t') (fun t' s' => R s' t'))
    {s : σ} {t : τ} (related : R s t) {requests : List ρ} (along : Along (fun r s => (serve r s).2) Rule s requests) :
    List.Forall₂ (Alike same) (replies serve s requests) (replies serve' t requests) := by
  induction requests generalizing s t with
  | nil => exact .nil
  | cons r rest ih =>
    have later : Along (fun r s => (serve r s).2) Rule (serve r s).2 rest := along.2
    rcases (step s t r related along.1).cases with ⟨b, t', a, s', ht, hs, agree, next⟩ | ⟨e, t', e', s', ht, hs, next⟩
    · rw [hs] at later
      rw [replies, replies, ht, hs]
      exact .cons agree (ih next later)
    · rw [hs] at later
      rw [replies, replies, ht, hs]
      exact .cons trivial (ih next later)

end Motte.Foundation
