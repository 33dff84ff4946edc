import Motte.Foundation.Script

/-! What a script does while others use its server.

A history lists the calls of a script, each with the state it found and the state
it left. Between two calls the others may change the state, as far as `R` allows.
`Safe` is the proof rule for histories: whatever `R` allows the others, each call
meets `G`, which may speak of the calls before it, and what the script ends with
meets the postcondition. -/
namespace Motte.Foundation

/-- One call: the state it found, the question, the answer, the state it left. -/
structure Exchange (σ Q : Type) (A : Q → Type) (ε : Type) where
  before : σ
  q : Q
  answer : Except ε (A q)
  after : σ

namespace Script
variable {σ Ω Q : Type} {A : Q → Type} {ε α β : Type}

/-- The call of a question, when the server chooses an answer. -/
def served (serve : Ω → (q : Q) → Op σ ε (A q)) (choice : Ω) (q : Q) (s : σ) : Exchange σ Q A ε :=
  ⟨s, q, (serve choice q s).1, (serve choice q s).2⟩

/-- The script can make these calls first, in this order. -/
def Makes (serve : Ω → (q : Q) → Op σ ε (A q)) (R : σ → σ → Prop) :
    Script Q A ε α → σ → List (Exchange σ Q A ε) → Prop
  | _, _, [] => True
  | .done _, _, _ :: _ => False
  | .ask q next, s, c :: rest =>
    R s c.before ∧ ∃ choice, c = served serve choice q c.before ∧
      (next (serve choice q c.before).1).Makes serve R c.after rest

/-- The script makes exactly these calls and ends so, in this state. -/
def Completes (serve : Ω → (q : Q) → Op σ ε (A q)) (R : σ → σ → Prop) :
    Script Q A ε α → σ → List (Exchange σ Q A ε) → Except ε α → σ → Prop
  | .done end_, s, [], r, t => end_ = r ∧ s = t
  | .done _, _, _ :: _, _, _ => False
  | .ask _ _, _, [], _, _ => False
  | .ask q next, s, c :: rest, r, t =>
    R s c.before ∧ ∃ choice, c = served serve choice q c.before ∧
      (next (serve choice q c.before).1).Completes serve R c.after rest r t

/-- The calls of a script that is left alone, one for each choice of the server. -/
def exchanges (serve : Ω → (q : Q) → Op σ ε (A q)) : List Ω → Script Q A ε α → σ → List (Exchange σ Q A ε)
  | [], _, _ => []
  | _ :: _, .done _, _ => []
  | choice :: rest, .ask q next, s =>
    served serve choice q s :: exchanges serve rest (next (serve choice q s).1) (serve choice q s).2

theorem makes_exchanges {serve : Ω → (q : Q) → Op σ ε (A q)} {R : σ → σ → Prop} (refl : ∀ s, R s s)
    (choices : List Ω) (x : Script Q A ε α) (s : σ) : x.Makes serve R s (exchanges serve choices x s) := by
  induction choices generalizing x s with
  | nil => cases x <;> trivial
  | cons choice rest ih =>
    cases x with
    | done r => trivial
    | ask q next => exact ⟨refl s, choice, rfl, ih _ _⟩

/-- How a script ends that is left alone, and where, if the choices suffice. -/
def ends (serve : Ω → (q : Q) → Op σ ε (A q)) : List Ω → Script Q A ε α → σ → Option (Except ε α × σ)
  | _, .done r, s => some (r, s)
  | [], .ask _ _, _ => none
  | choice :: rest, .ask q next, s => ends serve rest (next (serve choice q s).1) (serve choice q s).2

theorem completes_of_ends {serve : Ω → (q : Q) → Op σ ε (A q)} {R : σ → σ → Prop} (refl : ∀ s, R s s) {choices : List Ω}
    {x : Script Q A ε α} {s t : σ} {r : Except ε α} (h : ends serve choices x s = some (r, t)) :
    ∃ calls, x.Completes serve R s calls r t := by
  induction choices generalizing x s with
  | nil =>
    cases x with
    | done r' =>
      cases h
      exact ⟨[], rfl, rfl⟩
    | ask q next => cases h
  | cons choice rest ih =>
    cases x with
    | done r' =>
      cases h
      exact ⟨[], rfl, rfl⟩
    | ask q next =>
      obtain ⟨calls, completes⟩ := ih h
      exact ⟨served serve choice q s :: calls, refl s, choice, rfl, completes⟩

/-- A script comes to an end whatever the choices are. -/
theorem exists_completes {serve : Ω → (q : Q) → Op σ ε (A q)} {R : σ → σ → Prop} (refl : ∀ s, R s s) (choice : Ω)
    (x : Script Q A ε α) (s : σ) : ∃ calls r t, x.Completes serve R s calls r t := by
  induction x generalizing s with
  | done r => exact ⟨[], r, s, rfl, rfl⟩
  | ask q next ih =>
    obtain ⟨calls, r, t, completes⟩ := ih (serve choice q s).1 (serve choice q s).2
    exact ⟨served serve choice q s :: calls, r, t, refl s, choice, rfl, completes⟩

/-- A server that chooses among fewer answers. -/
theorem Completes.of_fewer {Ω' : Type} {serve : Ω → (q : Q) → Op σ ε (A q)} {R : σ → σ → Prop} {f : Ω' → Ω}
    {x : Script Q A ε α} {s t : σ} {calls : List (Exchange σ Q A ε)} {r : Except ε α}
    (h : x.Completes (fun o => serve (f o)) R s calls r t) : x.Completes serve R s calls r t := by
  induction calls generalizing x s with
  | nil => cases x <;> exact h
  | cons c rest ih =>
    cases x with
    | done end_ => exact h
    | ask q next =>
      obtain ⟨hr, choice, hc, hrest⟩ := h
      exact ⟨hr, f choice, hc, ih hrest⟩

variable (serve : Ω → (q : Q) → Op σ ε (A q)) (R : σ → σ → Prop)
  (G : List (Exchange σ Q A ε) → Exchange σ Q A ε → Prop)

/-- After the calls `past`, each call of the script meets `G` and its end the postcondition. -/
def Safe (post : Except ε α → List (Exchange σ Q A ε) → σ → Prop) :
    Script Q A ε α → List (Exchange σ Q A ε) → σ → Prop
  | .done r, past, s => post r past s
  | .ask q next, past, s => ∀ t, R s t → ∀ choice,
    G past (served serve choice q t) ∧
      (next (serve choice q t).1).Safe post (past ++ [served serve choice q t]) (serve choice q t).2

variable {serve R G}

/-- Every call of a history meets `G`. -/
theorem Safe.of_makes {post : Except ε α → List (Exchange σ Q A ε) → σ → Prop} {x : Script Q A ε α}
    {past history : List (Exchange σ Q A ε)} {s : σ} (safe : x.Safe serve R G post past s)
    (makes : x.Makes serve R s history) :
    ∀ before c after, history = before ++ c :: after → G (past ++ before) c := by
  induction history generalizing x past s with
  | nil =>
    intro before c after h
    cases before <;> cases h
  | cons first rest ih =>
    cases x with
    | done r => exact makes.elim
    | ask q next =>
      obtain ⟨hr, choice, hfirst, hrest⟩ := makes
      obtain ⟨hg, hnext⟩ := safe first.before hr choice
      intro before c after h
      cases before with
      | nil =>
        cases h
        rw [List.append_nil, hfirst]
        exact hg
      | cons first' before =>
        cases h
        rw [hfirst] at hrest
        have hc := ih hnext hrest before c after rfl
        rwa [List.append_assoc, List.singleton_append, ← hfirst] at hc

/-- A history that is complete ends as the postcondition says. -/
theorem Safe.of_completes {post : Except ε α → List (Exchange σ Q A ε) → σ → Prop} {x : Script Q A ε α}
    {past history : List (Exchange σ Q A ε)} {s t : σ} {r : Except ε α} (safe : x.Safe serve R G post past s)
    (completes : x.Completes serve R s history r t) : post r (past ++ history) t := by
  induction history generalizing x past s with
  | nil =>
    cases x with
    | done end_ =>
      obtain ⟨rfl, rfl⟩ := completes
      rw [List.append_nil]
      exact safe
    | ask q next => exact completes.elim
  | cons first rest ih =>
    cases x with
    | done end_ => exact completes.elim
    | ask q next =>
      obtain ⟨hr, choice, hfirst, hrest⟩ := completes
      have hnext := (safe first.before hr choice).2
      rw [hfirst] at hrest
      have hpost := ih hnext hrest
      rwa [List.append_assoc, List.singleton_append, ← hfirst] at hpost

/-- The state that a history leaves. -/
def left (s : σ) : List (Exchange σ Q A ε) → σ
  | [] => s
  | c :: rest => left c.after rest

/-- What each call establishes, given what came before it, holds when the calls have been made. -/
theorem Safe.keeps {J : List (Exchange σ Q A ε) → σ → Prop} {post : Except ε α → List (Exchange σ Q A ε) → σ → Prop}
    {x : Script Q A ε α} {past history : List (Exchange σ Q A ε)} {s : σ}
    (safe : x.Safe serve R (fun past c => J (past ++ [c]) c.after) post past s) (makes : x.Makes serve R s history)
    (hs : J past s) : J (past ++ history) (left s history) := by
  induction history generalizing x past s with
  | nil =>
    rw [List.append_nil]
    exact hs
  | cons first rest ih =>
    cases x with
    | done end_ => exact makes.elim
    | ask q next =>
      obtain ⟨hr, choice, hfirst, hrest⟩ := makes
      obtain ⟨hg, hnext⟩ := safe first.before hr choice
      rw [hfirst] at hrest
      have h := ih hnext hrest hg
      have hafter : first.after = (serve choice q first.before).2 := congrArg Exchange.after hfirst
      rw [List.append_assoc, List.singleton_append, ← hfirst, ← hafter] at h
      exact h

section Rules
variable {x : Script Q A ε α} {post mid : Except ε α → List (Exchange σ Q A ε) → σ → Prop}
  {past : List (Exchange σ Q A ε)} {s : σ}

theorem Safe.mono (h : x.Safe serve R G mid past s) (weaken : ∀ r past t, mid r past t → post r past t) :
    x.Safe serve R G post past s := by
  induction x generalizing past s with
  | done r => exact weaken r past s h
  | ask q next ih => exact fun t hr choice => ⟨(h t hr choice).1, ih _ (h t hr choice).2⟩

/-- What is safe stays safe while the others move. -/
theorem Safe.rely (trans : ∀ a b c, R a b → R b c → R a c)
    (stable : ∀ r past s t, post r past s → R s t → post r past t) (h : x.Safe serve R G post past s) {t : σ}
    (hst : R s t) : x.Safe serve R G post past t := by
  cases x with
  | done r => exact stable r past s t h hst
  | ask q next => exact fun u htu choice => h u (trans s t u hst htu) choice

/-- What the others keep holds to the end of a script that guarantees as much as it relies on. -/
theorem Safe.frame {I : σ → Prop} (guarantee : ∀ past e, G past e → R e.before e.after)
    (stable : ∀ s t, I s → R s t → I t) (h : x.Safe serve R G post past s) (hi : I s) :
    x.Safe serve R G (fun r past t => post r past t ∧ I t) past s := by
  induction x generalizing past s with
  | done r => exact ⟨h, hi⟩
  | ask q next ih =>
    intro t hst choice
    obtain ⟨hg, hnext⟩ := h t hst choice
    exact ⟨hg, ih _ hnext (stable _ _ (stable _ _ hi hst) (guarantee past _ hg))⟩

theorem Safe.andThen {k : Except ε α → Script Q A ε β} {post : Except ε β → List (Exchange σ Q A ε) → σ → Prop}
    (h : x.Safe serve R G mid past s)
    (hk : ∀ r past t, mid r past t → (k r).Safe serve R G post past t) :
    (x.andThen k).Safe serve R G post past s := by
  induction x generalizing past s with
  | done r => exact hk r past s h
  | ask q next ih => exact fun t hr choice => ⟨(h t hr choice).1, ih _ (h t hr choice).2⟩

theorem Safe.bind {f : α → Script Q A ε β} {post : Except ε β → List (Exchange σ Q A ε) → σ → Prop}
    (h : x.Safe serve R G mid past s)
    (ok : ∀ a past t, mid (.ok a) past t → (f a).Safe serve R G post past t)
    (error : ∀ e past t, mid (.error e) past t → post (.error e) past t) :
    (x >>= f).Safe serve R G post past s :=
  h.andThen fun
    | .ok a, past, t, hm => ok a past t hm
    | .error e, past, t, hm => error e past t hm

theorem Safe.handle {h' : ε → Script Q A ε α} (h : x.Safe serve R G mid past s)
    (ok : ∀ a past t, mid (.ok a) past t → post (.ok a) past t)
    (error : ∀ e past t, mid (.error e) past t → (h' e).Safe serve R G post past t) :
    (x.handle h').Safe serve R G post past s :=
  h.andThen fun
    | .ok a, past, t, hm => ok a past t hm
    | .error e, past, t, hm => error e past t hm

/-- A script whose end is looked at ends well, one way or the other. -/
theorem Safe.result (h : x.Safe serve R G mid past s) :
    x.result.Safe serve R G (fun r past t => ∃ a, r = .ok a ∧ mid a past t) past s :=
  h.andThen (fun r _ _ hm => ⟨r, rfl, hm⟩)

theorem safe_call {q : Q} {post : Except ε (A q) → List (Exchange σ Q A ε) → σ → Prop}
    (h : ∀ t, R s t → ∀ choice, G past (served serve choice q t) ∧
      post (serve choice q t).1 (past ++ [served serve choice q t]) (serve choice q t).2) :
    (call q : Script Q A ε (A q)).Safe serve R G post past s := h

/-- A computation without calls hands on what it computed. -/
theorem safe_lift_bind {y : Except ε α} {f : α → Script Q A ε β}
    {post : Except ε β → List (Exchange σ Q A ε) → σ → Prop}
    (ok : ∀ a, y = .ok a → (f a).Safe serve R G post past s) (error : ∀ e, y = .error e → post (.error e) past s) :
    (lift y >>= f).Safe serve R G post past s := by
  cases y with
  | error e => exact error e rfl
  | ok a => exact ok a rfl

theorem safe_ite {c : Prop} [Decidable c] {y : Script Q A ε α} (hx : c → x.Safe serve R G post past s)
    (hy : ¬c → y.Safe serve R G post past s) : (if c then x else y).Safe serve R G post past s := by
  split
  · exact hx ‹_›
  · exact hy ‹_›

theorem safe_when {c : Prop} [Decidable c] {x : Script Q A ε Unit}
    {post : Except ε Unit → List (Exchange σ Q A ε) → σ → Prop} (hx : c → x.Safe serve R G post past s)
    (skip : ¬c → post (.ok ()) past s) : (when c x).Safe serve R G post past s :=
  safe_ite hx skip

/-- What the others and every call that a script may make keep holds to its end. -/
theorem Asks.safe {P : Q → Prop} {I : List (Exchange σ Q A ε) → σ → Prop} (asks : x.Asks P)
    (stable : ∀ past s t, I past s → R s t → I past t)
    (kept : ∀ past s q choice, P q → I past s →
      G past (served serve choice q s) ∧ I (past ++ [served serve choice q s]) (serve choice q s).2)
    (h : I past s) : x.Safe serve R G (fun _ => I) past s := by
  induction x generalizing past s with
  | done r => exact h
  | ask q next ih =>
    intro t hr choice
    obtain ⟨hg, hi⟩ := kept past t q choice asks.1 (stable past s t h hr)
    exact ⟨hg, ih _ (asks.2 _) hi⟩

end Rules

/-! ### Keeping an invariant -/

section Keeping
variable {J : List (Exchange σ Q A ε) → σ → Prop} {x : Script Q A ε α} {s : σ} {Φ Ψ : Except ε α → σ → Prop}

/-- From a state on, every call keeps what `J` says of the calls so far and the state, and the end meets `Φ`. -/
def Keeps (serve : Ω → (q : Q) → Op σ ε (A q)) (R : σ → σ → Prop) (J : List (Exchange σ Q A ε) → σ → Prop)
    (x : Script Q A ε α) (s : σ) (Φ : Except ε α → σ → Prop) : Prop :=
  ∀ past, J past s → x.Safe serve R (fun past c => J (past ++ [c]) c.after) (fun r past t => J past t ∧ Φ r t) past s

theorem Keeps.mono (h : x.Keeps serve R J s Φ) (weaken : ∀ r t, Φ r t → Ψ r t) : x.Keeps serve R J s Ψ :=
  fun past hj => (h past hj).mono (fun r _ t hm => ⟨hm.1, weaken r t hm.2⟩)

/-- What `J` says may be used. -/
theorem keeps_given {I : σ → Prop} (known : ∀ past, J past s → I s) (h : I s → x.Keeps serve R J s Φ) :
    x.Keeps serve R J s Φ := fun past hj => h (known past hj) past hj

theorem keeps_done {r : Except ε α} (h : Φ r s) : (done r : Script Q A ε α).Keeps serve R J s Φ := fun _ hj => ⟨hj, h⟩

theorem Keeps.andThen {k : Except ε α → Script Q A ε β} {Ψ : Except ε β → σ → Prop} (h : x.Keeps serve R J s Φ)
    (hk : ∀ r t, Φ r t → (k r).Keeps serve R J t Ψ) : (x.andThen k).Keeps serve R J s Ψ :=
  fun past hj => (h past hj).andThen (fun r past t hm => hk r t hm.2 past hm.1)

theorem Keeps.bind {f : α → Script Q A ε β} {Ψ : Except ε β → σ → Prop} (h : x.Keeps serve R J s Φ)
    (ok : ∀ a t, Φ (.ok a) t → (f a).Keeps serve R J t Ψ) (error : ∀ e t, Φ (.error e) t → Ψ (.error e) t) :
    (x >>= f).Keeps serve R J s Ψ :=
  h.andThen fun
    | .ok a, t, hm => ok a t hm
    | .error e, t, hm => keeps_done (error e t hm)

theorem Keeps.handle {h' : ε → Script Q A ε α} (h : x.Keeps serve R J s Φ) (ok : ∀ a t, Φ (.ok a) t → Ψ (.ok a) t)
    (error : ∀ e t, Φ (.error e) t → (h' e).Keeps serve R J t Ψ) : (x.handle h').Keeps serve R J s Ψ :=
  h.andThen fun
    | .ok a, t, hm => keeps_done (ok a t hm)
    | .error e, t, hm => error e t hm

theorem Keeps.result {Ψ : Except ε (Except ε α) → σ → Prop} (h : x.Keeps serve R J s Φ)
    (ends : ∀ r t, Φ r t → Ψ (.ok r) t) : x.result.Keeps serve R J s Ψ :=
  h.andThen (fun r t hm => keeps_done (ends r t hm))

theorem keeps_call {q : Q} {Φ : Except ε (A q) → σ → Prop}
    (h : ∀ past t, J past s → R s t → ∀ choice, J (past ++ [served serve choice q t]) (serve choice q t).2 ∧
      Φ (serve choice q t).1 (serve choice q t).2) : (call q : Script Q A ε (A q)).Keeps serve R J s Φ :=
  fun past hj t hr choice => ⟨(h past t hj hr choice).1, h past t hj hr choice⟩

/-- A call whose handler has a specification. -/
theorem keeps_served {q : Q} {Φ : Except ε (A q) → σ → Prop}
    (h : ∀ past t, J past s → R s t → ∀ choice, (serve choice q).wp t
      (fun a u => J (past ++ [⟨t, q, .ok a, u⟩]) u ∧ Φ (.ok a) u)
      (fun e u => J (past ++ [⟨t, q, .error e, u⟩]) u ∧ Φ (.error e) u)) :
    (call q : Script Q A ε (A q)).Keeps serve R J s Φ := by
  refine keeps_call (fun past t hj hr choice => ?_)
  have hwp := h past t hj hr choice
  unfold served
  rcases hserve : serve choice q t with ⟨e | a, u⟩
  · exact (Op.wp_of_error hserve).1 hwp
  · exact (Op.wp_of_ok hserve).1 hwp

theorem keeps_lift_bind {y : Except ε α} {f : α → Script Q A ε β} {Ψ : Except ε β → σ → Prop}
    (ok : ∀ a, y = .ok a → (f a).Keeps serve R J s Ψ) (error : ∀ e, y = .error e → Ψ (.error e) s) :
    (lift y >>= f).Keeps serve R J s Ψ := by
  cases y with
  | error e => exact keeps_done (error e rfl)
  | ok a => exact ok a rfl

theorem keeps_ite {c : Prop} [Decidable c] {y : Script Q A ε α} (hx : c → x.Keeps serve R J s Φ)
    (hy : ¬c → y.Keeps serve R J s Φ) : (if c then x else y).Keeps serve R J s Φ := by
  split
  · exact hx ‹_›
  · exact hy ‹_›

theorem Keeps.of_completes (h : x.Keeps serve R J s Φ) {past history : List (Exchange σ Q A ε)} {t : σ} {r : Except ε α}
    (hj : J past s) (completes : x.Completes serve R s history r t) : Φ r t :=
  ((h past hj).of_completes completes).2

end Keeping

end Script

/-! ### Scripts one after another -/

/-- Scripts that are run one after another, each to its end or until it is cut short: the calls that were made, and
the state they left. -/
inductive Sessions {σ Ω Q : Type} {A : Q → Type} {ε α : Type} (serve : Ω → (q : Q) → Op σ ε (A q)) (R : σ → σ → Prop)
    (Allowed : Script Q A ε α → List (Exchange σ Q A ε) → Prop) (s : σ) : List (Exchange σ Q A ε) → σ → Prop
  | begin : Sessions serve R Allowed s [] s
  | next {history calls : List (Exchange σ Q A ε)} {t : σ} {x : Script Q A ε α}
      (earlier : Sessions serve R Allowed s history t) (allowed : Allowed x calls) (makes : x.Makes serve R t calls) :
      Sessions serve R Allowed s (history ++ calls) (Script.left t calls)

section Sessions
variable {σ Ω Q : Type} {A : Q → Type} {ε α : Type} {serve : Ω → (q : Q) → Op σ ε (A q)} {R : σ → σ → Prop}
  {Allowed : Script Q A ε α → List (Exchange σ Q A ε) → Prop} {J : List (Exchange σ Q A ε) → σ → Prop} {s t : σ}
  {history : List (Exchange σ Q A ε)}

theorem Sessions.keeps (h : Sessions serve R Allowed s history t) (hs : J [] s)
    (keeps : ∀ x calls t, Allowed x calls → x.Keeps serve R J t (fun _ _ => True)) : J history t := by
  induction h with
  | begin => exact hs
  | next earlier allowed makes ih => exact (keeps _ _ _ allowed _ ih).keeps makes ih

/-- What holds between the scripts. -/
theorem Sessions.holds {P : List (Exchange σ Q A ε) → Prop} (h : Sessions serve R Allowed s history t) (begin_ : P [])
    (next : ∀ x calls history, Allowed x calls → P history → P (history ++ calls)) : P history := by
  induction h with
  | begin => exact begin_
  | next earlier allowed makes ih => exact next _ _ _ allowed ih

end Sessions

/-! ### Safe scripts side by side -/

namespace Callers
variable {σ ι Ω Q : Type} {A : Q → Type} {ε α : Type} [DecidableEq ι]
  {serve : Ω → (q : Q) → Op σ ε (A q)} {R : σ → σ → Prop} {G : List (Exchange σ Q A ε) → Exchange σ Q A ε → Prop}
  {c : Callers σ ι Q A ε α}

/-- What every caller still has to do is safe, as far as the others do what `R` allows. -/
def Safe (serve : Ω → (q : Q) → Op σ ε (A q)) (R : σ → σ → Prop)
    (G : List (Exchange σ Q A ε) → Exchange σ Q A ε → Prop) (c : Callers σ ι Q A ε α) : Prop :=
  ∀ i, ∃ past, (c.pending i).Safe serve R G (fun _ _ _ => True) past c.state

/-- Safe callers that guarantee what they rely on stay safe, and the call of a move meets `G`. -/
theorem safe_step (refl : ∀ s, R s s) (trans : ∀ a b c, R a b → R b c → R a c)
    (guarantee : ∀ past e, G past e → R e.before e.after) {move : Move ι Ω Q A ε α} (h : c.Safe serve R G)
    (start : ∀ i script, move = .start i script →
      script.Safe serve R G (fun _ _ _ => True) [] c.state) :
    (c.step serve move).Safe serve R G ∧ ((c.step serve move).state = c.state ∨ ∃ past choice q,
      c.called move = some q ∧ G past (Script.served serve choice q c.state) ∧
        (c.step serve move).state = (serve choice q c.state).2) := by
  cases move with
  | start j script =>
    refine ⟨fun i => ?_, .inl rfl⟩
    by_cases hij : i = j
    · subst hij
      exact ⟨[], by simpa [step] using start i script rfl⟩
    · simpa [step, Function.update_of_ne hij] using h i
  | act j choice =>
    obtain ⟨past, hj⟩ := h j
    cases hp : c.pending j with
    | done r =>
      rw [step_act_done hp]
      exact ⟨h, .inl rfl⟩
    | ask q next =>
      rw [hp] at hj
      obtain ⟨hg, hnext⟩ := hj c.state (refl _) choice
      rw [step_act_ask hp]
      refine ⟨fun i => ?_, .inr ⟨past, choice, q, called_act_ask hp, hg, rfl⟩⟩
      by_cases hij : i = j
      · subst hij
        exact ⟨past ++ [Script.served serve choice q c.state], by simpa using hnext⟩
      · obtain ⟨past', hi⟩ := h i
        refine ⟨past', ?_⟩
        simp only [Function.update_of_ne hij]
        exact hi.rely trans (fun _ _ _ _ h _ => h) (guarantee past _ hg)

end Callers
end Motte.Foundation
