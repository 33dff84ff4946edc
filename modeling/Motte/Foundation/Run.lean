import Motte.Foundation.Op

/-! Runs of a system that serves one request at a time.

A system is a step function; a run is a list of requests. Clients that call
atomic operations concurrently produce some order of them, so a statement about
every list of requests is a statement about every interleaving. A `Rule` says
which request may come in which state, and a property of runs under a rule is
proved from one step. -/
namespace Motte.Foundation

variable {σ ρ τ : Type}

/-- The state after a list of requests. -/
def run (step : ρ → σ → σ) (s : σ) : List ρ → σ
  | [] => s
  | r :: rest => run step (step r s) rest

theorem run_append (step : ρ → σ → σ) (s : σ) (a b : List ρ) :
    run step s (a ++ b) = run step (run step s a) b := by
  induction a generalizing s with
  | nil => rfl
  | cons r rest ih => exact ih _

/-- What a system answers along a run. -/
def replies {ε α : Type} (serve : ρ → Op σ ε α) (s : σ) : List ρ → List (Except ε α)
  | [] => []
  | r :: rest => (serve r s).1 :: replies serve (serve r s).2 rest

/-- Every request of the run meets the rule in the state it finds. -/
def Along (step : ρ → σ → σ) (Rule : σ → ρ → Prop) (s : σ) : List ρ → Prop
  | [] => True
  | r :: rest => Rule s r ∧ Along step Rule (step r s) rest

instance (step : ρ → σ → σ) (Rule : σ → ρ → Prop) [∀ s r, Decidable (Rule s r)] (s : σ) :
    (requests : List ρ) → Decidable (Along step Rule s requests)
  | [] => inferInstanceAs (Decidable True)
  | r :: rest =>
    have := instDecidableAlong step Rule (step r s) rest
    inferInstanceAs (Decidable (Rule s r ∧ Along step Rule (step r s) rest))

theorem along_append {step : ρ → σ → σ} {Rule : σ → ρ → Prop} {s : σ} {a b : List ρ} :
    Along step Rule s (a ++ b) ↔ Along step Rule s a ∧ Along step Rule (run step s a) b := by
  induction a generalizing s with
  | nil => exact ⟨fun h => ⟨trivial, h⟩, fun h => h.2⟩
  | cons r rest ih =>
    constructor
    · rintro ⟨hr, h⟩
      exact ⟨⟨hr, (ih.1 h).1⟩, (ih.1 h).2⟩
    · rintro ⟨⟨hr, ha⟩, hb⟩
      exact ⟨hr, ih.2 ⟨ha, hb⟩⟩

/-- A rule that asks nothing of the state holds along a run of requests that meet it. -/
theorem along_of_forall {step : ρ → σ → σ} {Rule : ρ → Prop} {s : σ} {requests : List ρ}
    (h : ∀ r ∈ requests, Rule r) : Along step (fun _ r => Rule r) s requests := by
  induction requests generalizing s with
  | nil => trivial
  | cons r rest ih =>
    exact ⟨h r (List.mem_cons_self ..), ih (fun r' hr => h r' (List.mem_cons_of_mem r hr))⟩

/-- What one step keeps, a run keeps. -/
theorem Along.keeps {step : ρ → σ → σ} {Rule : σ → ρ → Prop} {I : σ → Prop}
    (preserved : ∀ s r, I s → Rule s r → I (step r s)) {s : σ} {requests : List ρ}
    (h : Along step Rule s requests) (hs : I s) : I (run step s requests) := by
  induction requests generalizing s with
  | nil => exact hs
  | cons r rest ih => exact ih h.2 (preserved s r hs h.1)

/-- Under an invariant, a reflexive and transitive relation that holds across one
step holds across a run. -/
theorem Along.relates {step : ρ → σ → σ} {Rule : σ → ρ → Prop} {I : σ → Prop} {R : σ → σ → Prop}
    (refl : ∀ s, R s s) (trans : ∀ a b c, R a b → R b c → R a c)
    (preserved : ∀ s r, I s → Rule s r → I (step r s))
    (across : ∀ s r, I s → Rule s r → R s (step r s)) {s : σ} {requests : List ρ}
    (h : Along step Rule s requests) (hs : I s) : R s (run step s requests) := by
  induction requests generalizing s with
  | nil => exact refl s
  | cons r rest ih =>
    exact trans _ _ _ (across s r hs h.1) (ih h.2 (preserved s r hs h.1))

/-- A run that ends in a property it did not start with has a step that enters it. -/
theorem run_enters {step : ρ → σ → σ} {P : σ → Prop} {s : σ} {requests : List ρ} (h : ¬ P s)
    (h' : P (run step s requests)) :
    ∃ a r b, requests = a ++ r :: b ∧ ¬ P (run step s a) ∧ P (run step s (a ++ [r])) := by
  induction requests generalizing s with
  | nil => exact absurd h' h
  | cons r rest ih =>
    by_cases hr : P (step r s)
    · exact ⟨[], r, rest, rfl, h, hr⟩
    · obtain ⟨a, r', b, rfl, hout, hin⟩ := ih hr h'
      exact ⟨r :: a, r', b, rfl, hout, hin⟩

/-- What every step keeps, every run keeps. -/
theorem run_keeps {step : ρ → σ → σ} {I : σ → Prop} (preserved : ∀ s r, I s → I (step r s)) {s : σ}
    (requests : List ρ) (hs : I s) : I (run step s requests) := by
  induction requests generalizing s with
  | nil => exact hs
  | cons r rest ih => exact ih (preserved s r hs)

/-- A reflexive and transitive relation that holds across every step holds across every run. -/
theorem run_relates {step : ρ → σ → σ} {R : σ → σ → Prop} (refl : ∀ s, R s s)
    (trans : ∀ a b c, R a b → R b c → R a c) (across : ∀ s r, R s (step r s)) (s : σ) (requests : List ρ) :
    R s (run step s requests) := by
  induction requests generalizing s with
  | nil => exact refl s
  | cons r rest ih => exact trans _ _ _ (across s r) (ih _)

/-! ### What happens at most once -/

/-- What the steps of a run give out, in order. -/
def emitted {α : Type} (step : ρ → σ → σ) (gives : σ → ρ → Option α) (s : σ) : List ρ → List α
  | [] => []
  | r :: rest => (gives s r).toList ++ emitted step gives (step r s) rest

/-- Nothing is given out twice if what is given out was not spent before, is spent then, and stays so. -/
theorem Along.emits_once {α : Type} {step : ρ → σ → σ} {gives : σ → ρ → Option α} {Rule : σ → ρ → Prop}
    {I : σ → Prop} {Spent : σ → α → Prop} (preserved : ∀ s r, I s → Rule s r → I (step r s))
    (fresh : ∀ s r a, I s → Rule s r → gives s r = some a → ¬ Spent s a ∧ Spent (step r s) a)
    (kept : ∀ s r a, I s → Rule s r → Spent s a → Spent (step r s) a) {s : σ} {requests : List ρ}
    (h : Along step Rule s requests) (hs : I s) :
    (emitted step gives s requests).Nodup ∧ ∀ a ∈ emitted step gives s requests, ¬ Spent s a := by
  induction requests generalizing s with
  | nil => exact ⟨List.nodup_nil, fun _ ha => by cases ha⟩
  | cons r rest ih =>
    obtain ⟨nodup, unspent⟩ := ih h.2 (preserved s r hs h.1)
    have later (a : α) (ha : a ∈ emitted step gives (step r s) rest) : ¬ Spent s a :=
      fun spent => unspent a ha (kept s r a hs h.1 spent)
    unfold emitted
    cases hg : gives s r with
    | none => exact ⟨nodup, later⟩
    | some a =>
      obtain ⟨hnot, hspent⟩ := fresh s r a hs h.1 hg
      refine ⟨List.nodup_cons.2 ⟨fun ha => unspent a ha hspent, nodup⟩, fun b hb => ?_⟩
      rcases List.mem_cons.1 hb with rfl | hb
      · exact hnot
      · exact later b hb

end Motte.Foundation
