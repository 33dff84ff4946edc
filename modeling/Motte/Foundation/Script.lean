import Motte.Foundation.Run

/-! Programs that ask their surroundings.

A script is a program that stops at each call it makes: a question, whose answer
(or the exception raised instead) it goes on with. A server answers questions from
a shared state, together with a choice for what lies outside it. Several callers
run scripts against one server: each move lets one caller's pending question be
answered, or lets a caller drop what it was doing and start a script afresh, as a
process does after a crash. So the callers interleave at their calls, and what
happens between two calls of one caller is up to the others.

`Asks` bounds the questions a script can ask whatever the answers are. -/
namespace Motte.Foundation

/-- A program over questions `Q` with answers `A`, raising `ε` or returning `α`. -/
inductive Script (Q : Type) (A : Q → Type) (ε α : Type) where
  | done (result : Except ε α)
  | ask (q : Q) (next : Except ε (A q) → Script Q A ε α)

namespace Script
variable {Q : Type} {A : Q → Type} {ε α β : Type}

/-- Go on with how the first script ended. -/
def andThen (x : Script Q A ε α) (k : Except ε α → Script Q A ε β) : Script Q A ε β :=
  match x with
  | done result => k result
  | ask q next => ask q (fun answer => (next answer).andThen k)

protected def bind (x : Script Q A ε α) (f : α → Script Q A ε β) : Script Q A ε β :=
  x.andThen fun
    | .ok a => f a
    | .error e => done (.error e)

instance : Monad (Script Q A ε) where
  pure a := done (.ok a)
  bind := Script.bind

def raise (e : ε) : Script Q A ε α := done (.error e)

/-- Go on with an exception as with a value. -/
def handle (x : Script Q A ε α) (h : ε → Script Q A ε α) : Script Q A ε α :=
  x.andThen fun
    | .ok a => done (.ok a)
    | .error e => h e

/-- How the script ended, as a value. -/
def result (x : Script Q A ε α) : Script Q A ε (Except ε α) := x.andThen (fun r => done (.ok r))

/-- Make one call. -/
def call (q : Q) : Script Q A ε (A q) := ask q done

def lift (x : Except ε α) : Script Q A ε α := done x

/-- Run a script only under a condition. -/
def when (c : Prop) [Decidable c] (x : Script Q A ε Unit) : Script Q A ε Unit := if c then x else done (.ok ())

/-! ### What a script can ask -/

def Asks (P : Q → Prop) : Script Q A ε α → Prop
  | done _ => True
  | ask q next => P q ∧ ∀ answer, (next answer).Asks P

section Asks
variable {P : Q → Prop} {x : Script Q A ε α}

theorem asks_andThen {k : Except ε α → Script Q A ε β} (hx : x.Asks P) (hk : ∀ r, (k r).Asks P) :
    (x.andThen k).Asks P := by
  induction x with
  | done r => exact hk r
  | ask q next ih => exact ⟨hx.1, fun answer => ih answer (hx.2 answer)⟩

theorem asks_bind {f : α → Script Q A ε β} (hx : x.Asks P) (hf : ∀ a, (f a).Asks P) : (x >>= f).Asks P :=
  asks_andThen hx fun
    | .ok a => hf a
    | .error _ => trivial

/-- Where everything may be asked, every script asks it. -/
theorem asks_always (h : ∀ q, P q) (x : Script Q A ε α) : x.Asks P := by
  induction x with
  | done r => trivial
  | ask q next ih => exact ⟨h q, ih⟩

theorem asks_pure (a : α) : (pure a : Script Q A ε α).Asks P := trivial

theorem asks_raise (e : ε) : (raise e : Script Q A ε α).Asks P := trivial

theorem asks_lift (r : Except ε α) : (lift r : Script Q A ε α).Asks P := trivial

/-- A computation without calls hands on what it computed. -/
theorem asks_lift_bind {y : Except ε α} {f : α → Script Q A ε β} (h : ∀ a, y = .ok a → (f a).Asks P) :
    (lift y >>= f).Asks P := by
  cases y with
  | error e => trivial
  | ok a => exact h a rfl

theorem asks_ite {c : Prop} [Decidable c] {y : Script Q A ε α} (hx : c → x.Asks P) (hy : ¬c → y.Asks P) :
    (if c then x else y).Asks P := by
  split
  · exact hx ‹_›
  · exact hy ‹_›

theorem asks_when {c : Prop} [Decidable c] {x : Script Q A ε Unit} (hx : x.Asks P) : (when c x).Asks P :=
  asks_ite (fun _ => hx) (fun _ => trivial)

theorem Asks.mono {P' : Q → Prop} (h : x.Asks P) (weaken : ∀ q, P q → P' q) : x.Asks P' := by
  induction x with
  | done r => trivial
  | ask q next ih => exact ⟨weaken q h.1, fun answer => ih answer (h.2 answer)⟩

theorem asks_handle {h : ε → Script Q A ε α} (hx : x.Asks P) (hh : ∀ e, (h e).Asks P) : (x.handle h).Asks P :=
  asks_andThen hx fun
    | .ok _ => trivial
    | .error e => hh e

theorem asks_result (hx : x.Asks P) : x.result.Asks P := asks_andThen hx (fun _ => trivial)

theorem asks_call {q : Q} (h : P q) : (call q : Script Q A ε (A q)).Asks P := ⟨h, fun _ => trivial⟩

end Asks

end Script

/-! ### Callers of one server -/

/-- The shared state and what each caller still has to do. -/
structure Callers (σ ι Q : Type) (A : Q → Type) (ε α : Type) where
  state : σ
  pending : ι → Script Q A ε α

/-- One move: a caller's pending call is made, or a caller starts a script. -/
inductive Move (ι Ω Q : Type) (A : Q → Type) (ε α : Type) where
  | act (i : ι) (choice : Ω)
  | start (i : ι) (script : Script Q A ε α)

namespace Callers
variable {σ ι Ω Q : Type} {A : Q → Type} {ε α : Type} [DecidableEq ι]

/-- What a move does, when `serve` answers calls. -/
def step (serve : Ω → (q : Q) → Op σ ε (A q)) (move : Move ι Ω Q A ε α) (c : Callers σ ι Q A ε α) :
    Callers σ ι Q A ε α :=
  match move with
  | .start i script => {c with pending := Function.update c.pending i script}
  | .act i choice =>
    match c.pending i with
    | .done _ => c
    | .ask q next =>
      { state := (serve choice q c.state).2
        pending := Function.update c.pending i (next (serve choice q c.state).1) }

/-- The call a move makes, if it makes one. -/
def called (c : Callers σ ι Q A ε α) : Move ι Ω Q A ε α → Option Q
  | .start _ _ => none
  | .act i _ =>
    match c.pending i with
    | .done _ => none
    | .ask q _ => some q

section Step
variable {serve : Ω → (q : Q) → Op σ ε (A q)} {c : Callers σ ι Q A ε α} {i : ι} {choice : Ω}

theorem step_act_done {r : Except ε α} (h : c.pending i = .done r) : c.step serve (.act i choice) = c := by
  simp only [step, h]

theorem step_act_ask {q : Q} {next : Except ε (A q) → Script Q A ε α} (h : c.pending i = .ask q next) :
    c.step serve (.act i choice) =
      { state := (serve choice q c.state).2
        pending := Function.update c.pending i (next (serve choice q c.state).1) } := by
  simp only [step, h]

omit [DecidableEq ι] in
theorem called_act_done {r : Except ε α} (h : c.pending i = .done r) :
    c.called (.act i choice : Move ι Ω Q A ε α) = none := by
  simp only [called, h]

omit [DecidableEq ι] in
theorem called_act_ask {q : Q} {next : Except ε (A q) → Script Q A ε α} (h : c.pending i = .ask q next) :
    c.called (.act i choice : Move ι Ω Q A ε α) = some q := by
  simp only [called, h]

/-- Scripts that ask only what `P` allows never come to ask anything else. -/
theorem asks_step {P : Q → Prop} {move : Move ι Ω Q A ε α} (h : ∀ i, (c.pending i).Asks P)
    (hstart : ∀ i script, move = .start i script → script.Asks P) :
    ∀ i, ((c.step serve move).pending i).Asks P := by
  intro i
  cases move with
  | start j script =>
    by_cases hij : i = j
    · subst hij
      simpa [step] using hstart i script rfl
    · simpa [step, Function.update_of_ne hij] using h i
  | act j choice =>
    cases hj : c.pending j with
    | done r => rw [step_act_done hj]; exact h i
    | ask q next =>
      rw [step_act_ask hj]
      by_cases hij : i = j
      · subst hij
        have hi := h i
        rw [hj] at hi
        simpa using hi.2 _
      · simpa [Function.update_of_ne hij] using h i

omit [DecidableEq ι] in
/-- A call that a move makes is one the caller's script may ask. -/
theorem asks_called {P : Q → Prop} (h : ∀ i, (c.pending i).Asks P) {move : Move ι Ω Q A ε α} {q : Q}
    (hq : c.called move = some q) : P q := by
  cases move with
  | start j script => cases hq
  | act j choice =>
    cases hj : c.pending j with
    | done r =>
      rw [called_act_done hj] at hq
      cases hq
    | ask q' next =>
      rw [called_act_ask hj] at hq
      cases hq
      have hj' := h j
      rw [hj] at hj'
      exact hj'.1

/-- The shared state changes by the call that a move makes, or not at all. -/
theorem state_step (move : Move ι Ω Q A ε α) :
    (c.called move = none ∧ (c.step serve move).state = c.state) ∨
      ∃ q choice, c.called move = some q ∧ (c.step serve move).state = (serve choice q c.state).2 := by
  cases move with
  | start j script => exact .inl ⟨rfl, rfl⟩
  | act j choice =>
    cases hj : c.pending j with
    | done r => exact .inl ⟨called_act_done hj, by rw [step_act_done hj]⟩
    | ask q next => exact .inr ⟨q, choice, called_act_ask hj, by rw [step_act_ask hj]⟩

end Step

end Callers
end Motte.Foundation
