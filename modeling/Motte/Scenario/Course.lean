import Motte.Scenario.Engine

/-! What an engine does, deed by deed.

A deed is in order (`Sound`) when an assertion held of the state that it was evaluated
on, when a call came back before its deadline, and when the target said that it had
stopped. While the engine evaluates or calls out, its budget, its evidence and its
verdict stay as they are (`Doing`). -/
namespace Motte.Scenario
open Foundation

section
variable {W : Type}

/-! ### Deeds -/

namespace Deed

/-- A deed that changes something outside. -/
def sideEffect : Deed W → Bool
  | .sent _ _ => true
  | .invoked mode _ _ => mode ≠ .deny
  | .applied _ _ => true
  | _ => false

def isSent : Deed W → Bool
  | .sent _ _ => true
  | _ => false

/-- A deed of a step itself, not of the engine around it. -/
def inStep : Deed W → Bool
  | .recorded _ => false
  | .closed _ => false
  | _ => true

/-- Something looked at while these conditions are checked. -/
def LooksAt (conditions : List Condition) : Deed W → Prop
  | .compiled c => c ∈ conditions
  | .asserted c _ => c ∈ conditions
  | _ => False

end Deed

/-- The number of messages to the target. -/
def sends (deeds : List (Deed W)) : Nat := deeds.countP Deed.isSent

variable (E : Setup W)

/-- The clock does not go back: a reading shows a time that has come, and a report takes no time away. -/
structure Ports.Monotone (P : Ports W) (time : W → ℚ) : Prop where
  reading : ∀ w, time w ≤ (P.now w).1
  reporting : ∀ sink ∈ P.eventSink, ∀ event w, time w ≤ time (sink event w).2

/-- The clock, when it was next read, was not past the deadline; the sink may have been told before that. -/
def Ports.InTime (P : Ports W) (deadline : ℚ) (after : W) : Prop :=
  ∃ w, (w = after ∨ ∃ sink ∈ P.eventSink, ∃ event, w = (sink event after).2) ∧ (P.now w).1 ≤ deadline

theorem Ports.InTime.le {P : Ports W} {time : W → ℚ} {deadline : ℚ} {after : W} (h : P.InTime deadline after)
    (mono : P.Monotone time) : time after ≤ deadline := by
  obtain ⟨w, rfl | ⟨sink, hsink, event, rfl⟩, hread⟩ := h
  · exact (mono.reading _).trans hread
  · exact ((mono.reporting sink hsink event after).trans (mono.reading _)).trans hread

/-- The event sink raises nothing but that evidence cannot be kept. -/
def Setup.Guarded : Prop :=
  ∀ sink ∈ E.ports.eventSink, ∀ event w e, (sink event w).1 = .error e → e.isBoundary = true

/-- The assertion holds of this state. -/
def Holds (condition : Condition) (context : Value) : Prop :=
  ∃ compiled outcome, compileCondition condition = .ok compiled ∧
    evaluateCondition E.repr compiled context = .ok outcome ∧ outcome.satisfied = true

/-- Nothing is wrong with a deed. -/
def Sound : Deed W → Prop
  | .compiled _ => True
  | .asserted condition context => Holds E condition context
  | .sent deadline after => E.ports.InTime deadline after
  | .invoked _ deadline after => E.ports.InTime deadline after
  | .applied deadline after => E.ports.InTime deadline after
  | .interrupted confirmed => confirmed = true
  | .recorded status => status = .succeeded
  | .closed succeeded => succeeded = true

/-! ### Steps of the engine -/

variable {E} {s : Engine W} {α : Type} {ok : α → Engine W → Prop} {err : Exn → Engine W → Prop}

@[simp] theorem wp_now {ok : ℚ → Engine W → Prop} :
    (now E).wp s ok err ↔ ok (E.ports.now s.world).1 { s with world := (E.ports.now s.world).2 } := Iff.rfl

@[simp] theorem wp_note {d : Deed W} {ok : Unit → Engine W → Prop} :
    (note d).wp s ok err ↔ ok () { s with deeds := s.deeds ++ [d] } := Iff.rfl

@[simp] theorem wp_setTerminal {v : Verdict} {ok : Unit → Engine W → Prop} :
    (setTerminal v).wp s ok err ↔ ok () { s with terminal := some v } := Iff.rfl

@[simp] theorem wp_remainingSeconds {ok : ℚ → Engine W → Prop} :
    (remainingSeconds E).wp s ok err ↔
      ok (max 0 (E.deadline - (E.ports.now s.world).1)) { s with world := (E.ports.now s.world).2 } := Iff.rfl

/-- A call of a port, whatever it does. -/
theorem wp_onWorld {x : Op W Exn α} (hok : ∀ a, (x s.world).1 = .ok a → ok a { s with world := (x s.world).2 })
    (herr : ∀ e, (x s.world).1 = .error e → err e { s with world := (x s.world).2 }) : (onWorld x).wp s ok err := by
  unfold onWorld
  rw [Op.wp_zoom]
  rcases hx : x s.world with ⟨e | a, w⟩
  · rw [Op.wp_of_error hx]
    rw [hx] at herr
    exact herr e rfl
  · rw [Op.wp_of_ok hx]
    rw [hx] at hok
    exact hok a rfl

theorem wp_perform {x : Op W Exn α} {deed : Except Exn α → W → Deed W}
    (hok : ∀ a w, x s.world = (.ok a, w) → ok a { s with world := w, deeds := s.deeds ++ [deed (.ok a) w] })
    (herr : ∀ e w, x s.world = (.error e, w) → err e { s with world := w, deeds := s.deeds ++ [deed (.error e) w] }) :
    (perform x deed).wp s ok err := by
  rcases hx : x s.world with ⟨e | a, w⟩
  · have hrun : perform x deed s = (.error e, { s with world := w, deeds := s.deeds ++ [deed (.error e) w] }) := by
      rw [perform, hx]
    exact (Op.wp_of_error hrun).2 (herr e w hx)
  · have hrun : perform x deed s = (.ok a, { s with world := w, deeds := s.deeds ++ [deed (.ok a) w] }) := by
      rw [perform, hx]
    exact (Op.wp_of_ok hrun).2 (hok a w hx)

/-- A report: the sink may do as it pleases, but if it is guarded it raises only that evidence cannot be kept. -/
theorem wp_emit {event : EngineEvent} {ok : Unit → Engine W → Prop}
    (hok : ∀ w, (w = s.world ∨ ∃ sink ∈ E.ports.eventSink, ∃ event, w = (sink event s.world).2) →
      ok () { s with world := w })
    (herr : ∀ e w, (E.Guarded → e.isBoundary = true) → err e { s with world := w }) : (emit E event).wp s ok err := by
  unfold emit
  cases hsink : E.ports.eventSink with
  | none => exact hok s.world (.inl rfl)
  | some sink =>
    rw [Op.wp_bind, Op.wp_gets]
    refine wp_onWorld (fun a _ => hok _ (.inr ⟨sink, hsink ▸ rfl, _, rfl⟩)) (fun e he => herr e _ (fun guarded => ?_))
    exact guarded sink (hsink ▸ rfl) _ _ e he

/-! ### While a step is taken -/

/-- What counts is as it was in the state `s₀`, apart from turns taken and deeds done. -/
structure Counting (s₀ : Engine W) (turns : Nat) (added : List (Deed W)) (t : Engine W) : Prop where
  stepsEvidence : t.stepsEvidence = s₀.stepsEvidence
  stepCount : t.stepCount = s₀.stepCount
  seq : t.seq = s₀.seq
  evidenceOnly : t.evidenceOnly = s₀.evidenceOnly
  turns : t.turns = s₀.turns + turns
  deeds : t.deeds = s₀.deeds ++ added

/-- Nor has a verdict been reached. -/
structure Doing (s₀ : Engine W) (turns : Nat) (added : List (Deed W)) (t : Engine W) : Prop
    extends Counting s₀ turns added t where
  terminal : t.terminal = s₀.terminal
  needsReview : t.needsReview = s₀.needsReview

namespace Doing
variable {s₀ t : Engine W} {turns : Nat} {added : List (Deed W)}

theorem begin (s₀ : Engine W) : Doing s₀ 0 [] s₀ :=
  ⟨⟨rfl, rfl, rfl, rfl, rfl, (List.append_nil _).symm⟩, rfl, rfl⟩

theorem world (h : Doing s₀ turns added t) (w : W) : Doing s₀ turns added { t with world := w } := { h with }

theorem note (h : Doing s₀ turns added t) (d : Deed W) (w : W) :
    Doing s₀ turns (added ++ [d]) { t with world := w, deeds := t.deeds ++ [d] } :=
  { h with deeds := by rw [h.deeds, List.append_assoc] }

end Doing

/-- What is done while assertions are evaluated. -/
structure Evaluating (E : Setup W) (s₀ : Engine W) (turns : Nat) (conditions : List Condition) (satisfied : Bool)
    (added : List (Deed W)) (t : Engine W) : Prop where
  more : ∃ more, Doing s₀ turns (added ++ more) t ∧ (∀ d ∈ more, d.LooksAt conditions) ∧
    (satisfied = true → (∀ d ∈ more, Sound E d) ∧ ∀ c ∈ conditions, ∃ context, .asserted c context ∈ more)

section Evaluation
variable {s₀ t : Engine W} {turns : Nat} {added : List (Deed W)} {condition : Condition}

theorem wp_compile (h : Doing s₀ turns added t) {ok : CompiledCondition → Engine W → Prop}
    (hok : ∀ compiled u, compileCondition condition = .ok compiled → Doing s₀ turns (added ++ [.compiled condition]) u →
      ok compiled u)
    (herr : ∀ e u, Doing s₀ turns (added ++ [.compiled condition]) u → err e u) : (compile condition).wp t ok err := by
  have noted : Doing s₀ turns (added ++ [.compiled condition]) { t with deeds := t.deeds ++ [.compiled condition] } :=
    h.note _ t.world
  unfold compile
  rw [Op.wp_bind, wp_note]
  split
  · rename_i compiled hcompiled
    exact hok compiled _ hcompiled noted
  · exact herr _ _ noted

theorem wp_context (h : Doing s₀ turns added t) {ok : Value → Engine W → Prop}
    (hok : ∀ v u, Doing s₀ turns added u → ok v u) (herr : ∀ e u, Doing s₀ turns added u → err e u) :
    (context E).wp t ok err := by
  unfold context
  rw [Op.wp_bind]
  refine wp_onWorld (fun state _ => ?_) (fun e _ => herr e _ (h.world _))
  simp only [Op.wp_bind, Op.wp_gets, Op.wp_pure]
  exact hok _ _ (h.world _)

theorem wp_decide (h : Doing s₀ turns added t) {ok : ConditionOutcome → Engine W → Prop}
    (hok : ∀ o u, Doing s₀ turns (added ++ [.compiled condition]) u → ok o u)
    (herr : ∀ e u, Doing s₀ turns (added ++ [.compiled condition]) u → err e u) : (decide_ E condition).wp t ok err := by
  unfold decide_
  rw [Op.wp_bind]
  refine wp_compile h (fun compiled u _ hu => ?_) herr
  rw [Op.wp_bind]
  refine wp_context hu (fun v u hu => ?_) herr
  rw [Op.wp_lift]
  exact ⟨fun o _ => hok o u hu, fun e _ => herr e u hu⟩

theorem wp_evaluateAssertion (h : Doing s₀ turns added t) :
    (evaluateAssertion E condition).wp t (fun r u => Evaluating E s₀ turns [condition] r.2 added u)
      (fun _ u => Evaluating E s₀ turns [condition] false added u) := by
  have compiledOnly {u : Engine W} (hu : Doing s₀ turns (added ++ [.compiled condition]) u) :
      Evaluating E s₀ turns [condition] false added u :=
    ⟨_, hu, fun d hd => by cases List.mem_singleton.1 hd; exact List.mem_singleton.2 rfl, fun h => by cases h⟩
  unfold evaluateAssertion
  rw [Op.wp_bind]
  refine wp_compile h (fun compiled u hcompiled hu => ?_) (fun e u hu => compiledOnly hu)
  rw [Op.wp_bind, Op.wp_result_iff, Op.wp_bind]
  refine wp_context hu (fun v u hu => ?_) (fun e u hu => ?_)
  · have noted := hu.note (.asserted condition v) u.world
    rw [List.append_assoc] at noted
    have looks : ∀ d ∈ [Deed.compiled condition] ++ [(.asserted condition v : Deed W)], d.LooksAt [condition] := by
      intro d hd
      simp only [List.cons_append, List.nil_append, List.mem_cons, List.not_mem_nil, or_false] at hd
      rcases hd with rfl | rfl
      · exact List.mem_singleton.2 rfl
      · exact List.mem_singleton.2 rfl
    have unsatisfied : Evaluating E s₀ turns [condition] false added
        { u with deeds := u.deeds ++ [.asserted condition v] } := ⟨_, noted, looks, fun h => by cases h⟩
    rw [Op.wp_bind, wp_note, Op.wp_lift]
    refine ⟨fun o ho => ?_, fun e he => ?_⟩
    · refine ⟨_, noted, looks, fun hsatisfied => ⟨fun d hd => ?_, fun c hc => ?_⟩⟩
      · simp only [List.cons_append, List.nil_append, List.mem_cons, List.not_mem_nil, or_false] at hd
        rcases hd with rfl | rfl
        · trivial
        · exact ⟨compiled, o, hcompiled, ho, hsatisfied⟩
      · rw [List.mem_singleton.1 hc]
        exact ⟨v, List.mem_append_right _ (List.mem_singleton.2 rfl)⟩
    · cases e <;> exact unsatisfied
  · cases e <;> exact compiledOnly hu

theorem wp_evaluate (conditions : List Condition) (h : Doing s₀ turns added t) :
    (evaluate E conditions).wp t
      (fun r u => Evaluating E s₀ turns conditions r.2 added u ∧ (r.1.isEmpty = true → r.2 = true))
      (fun _ u => Evaluating E s₀ turns conditions false added u) := by
  induction conditions generalizing t added with
  | nil =>
    refine ⟨⟨[], (List.append_nil added).symm ▸ h, fun _ hd => ?_, fun _ => ⟨fun _ hd => ?_, fun _ hc => ?_⟩⟩, fun _ => rfl⟩
    · cases hd
    · cases hd
    · cases hc
  | cons condition rest ih =>
    have wider {d : Deed W} (hd : d.LooksAt [condition]) : d.LooksAt (condition :: rest) := by
      cases d <;> first | exact hd | exact List.mem_cons.2 (.inl (List.mem_singleton.1 hd))
    have later {d : Deed W} (hd : d.LooksAt rest) : d.LooksAt (condition :: rest) := by
      cases d <;> first | exact hd | exact List.mem_cons_of_mem _ hd
    unfold evaluate
    rw [Op.wp_bind]
    refine Op.wp_mono (wp_evaluateAssertion h) (fun r u hr => ?_) (fun e u hr => ?_)
    · obtain ⟨first, hu, looks, sound⟩ := hr
      have joined {satisfied : Bool} {v : Engine W} (hv : Evaluating E s₀ turns rest satisfied (added ++ first) v) :
          Evaluating E s₀ turns (condition :: rest) (r.2 && satisfied) added v := by
        obtain ⟨more, hv, looks', sound'⟩ := hv
        rw [List.append_assoc] at hv
        refine ⟨first ++ more, hv, fun d hd => ?_, fun hboth => ?_⟩
        · exact (List.mem_append.1 hd).elim (fun hd => wider (looks d hd)) (fun hd => later (looks' d hd))
        · rw [Bool.and_eq_true] at hboth
          obtain ⟨sound, covered⟩ := sound hboth.1
          obtain ⟨sound', covered'⟩ := sound' hboth.2
          refine ⟨fun d hd => (List.mem_append.1 hd).elim (sound d) (sound' d), fun c hc => ?_⟩
          rcases List.mem_cons.1 hc with rfl | hc
          · obtain ⟨context, hmem⟩ := covered c (List.mem_singleton.2 rfl)
            exact ⟨context, List.mem_append_left _ hmem⟩
          · obtain ⟨context, hmem⟩ := covered' c hc
            exact ⟨context, List.mem_append_right _ hmem⟩
      rw [Op.wp_bind]
      refine Op.wp_mono (ih hu) (fun r' v hv => ⟨joined hv.1, fun hempty => by cases hempty⟩) (fun e v hv => ?_)
      have := joined hv
      rwa [Bool.and_false] at this
    · obtain ⟨first, hu, looks, -⟩ := hr
      exact ⟨first, hu, fun d hd => wider (looks d hd), fun h => by cases h⟩

end Evaluation

end

end Motte.Scenario
