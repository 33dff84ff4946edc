import Motte.Scenario.Course

/-! How a step ends that has no steps below it.

How it can end is said once (`Taken`): every deed is one that the step may do, an
interrupt that is not confirmed leaves its verdict, and a step that succeeds leaves no
verdict and has done nothing that is not in order. -/
namespace Motte.Scenario
open Foundation

section
variable {W : Type} {E : Setup W}

/-! ### How a step ends -/

/-- A deed that this step may do. -/
def Deed.Permitted (step : Step) : Deed W → Prop
  | .compiled c => c ∈ step.conditions.map Prod.snd
  | .asserted c _ => c ∈ step.conditions.map Prod.snd
  | .interrupted _ => True
  | .recorded _ => False
  | .closed _ => False
  | d => d.sideEffect = true → hasSideEffect step = true

/-- The turns that a step may take. -/
def allowance (step : Step) : Nat := if step.kind = .sendMessage then 1 else 0

/-- The step has done nothing yet that it may not do, and has had no need to stop the target. -/
structure Acting (step : Step) (s₀ : Engine W) (spent : Nat) (added : List (Deed W)) (t : Engine W) : Prop
    extends Doing s₀ spent added t where
  permitted : ∀ d ∈ added, d.Permitted step
  sent : sends added ≤ spent
  turn : spent ≤ allowance step
  steady : ∀ confirmed, .interrupted confirmed ∉ added

/-- The end that evidence cannot be kept puts to a step. -/
def isBoundaryEnd : Except Exn Dispatch → Bool
  | .ok _ => false
  | .error e => e.isBoundary

/-- How a step ends that was begun in the state `s₀`, where no verdict had been reached. -/
structure Taken (E : Setup W) (step : Step) (s₀ : Engine W) (spent : Nat) (added : List (Deed W))
    (ended : Except Exn Dispatch) (t : Engine W) : Prop extends Counting s₀ spent added t where
  permitted : ∀ d ∈ added, d.Permitted step
  sent : sends added ≤ spent
  turn : spent ≤ allowance step
  terminal : ∀ v ∈ t.terminal, v.1 ≠ .completed
  dispatched : ∀ result, ended = .ok result → result.status ≠ .skipped
  succeeded : ∀ result, ended = .ok result → result.status = .succeeded →
    t.terminal = none ∧ t.needsReview = s₀.needsReview ∧ ∀ d ∈ added, Sound E d
  /-- an interrupt that is not confirmed is not hidden -/
  review : E.Guarded → isBoundaryEnd ended = false → .interrupted false ∈ added →
    t.needsReview = true ∧ ∃ reason, t.terminal = some (.needsReview, reason)

def LeafEnd (E : Setup W) (step : Step) (s₀ : Engine W) (ended : Except Exn Dispatch) (t : Engine W) : Prop :=
  ∃ spent added, Taken E step s₀ spent added ended t

/-- However `x` ends, it is how the step may end. -/
def Ends (E : Setup W) (step : Step) (s₀ : Engine W) (x : Task W Dispatch) (t : Engine W) : Prop :=
  x.wp t (fun result u => LeafEnd E step s₀ (.ok result) u) (fun e u => LeafEnd E step s₀ (.error e) u)

/-- An end that is no success. -/
def IsFailure : Except Exn Dispatch → Prop
  | .ok result => result.status = .failed
  | .error _ => True

namespace Acting
variable {step : Step} {s₀ t : Engine W} {spent : Nat} {added : List (Deed W)} {ended : Except Exn Dispatch}

theorem world (h : Acting step s₀ spent added t) (w : W) : Acting step s₀ spent added { t with world := w } :=
  { h with toDoing := h.toDoing.world w }

/-- What a step leaves for later steps does not count. -/
theorem keep (h : Acting step s₀ spent added t) (w : W) (checkpoints : Table String Checkpoint)
    (stepResults toolResults : Document) (toolCalls : Nat) :
    Acting step s₀ spent added { t with
      world := w
      checkpoints := checkpoints
      stepResults := stepResults
      toolResults := toolResults
      toolCalls := toolCalls } := { h with }

/-- A step may fail at any time, with any verdict but success. -/
theorem failsWith (h : Acting step s₀ spent added t) (v : Option Verdict) (hv : ∀ v' ∈ v, v'.1 ≠ .completed)
    (failure : IsFailure ended) : LeafEnd E step s₀ ended { t with terminal := v } :=
  ⟨spent, added, {
    h.toCounting with
    permitted := h.permitted
    sent := h.sent
    turn := h.turn
    terminal := hv
    dispatched := by
      rintro result rfl hskipped
      have hfailed : result.status = .failed := failure
      rw [hskipped] at hfailed
      cases hfailed
    succeeded := by
      rintro result rfl hsucceeded
      have hfailed : result.status = .failed := failure
      rw [hsucceeded] at hfailed
      cases hfailed
    review := fun _ _ hmem => (h.steady false hmem).elim }⟩

theorem fails (h : Acting step s₀ spent added t) (open_ : s₀.terminal = none) (failure : IsFailure ended) :
    LeafEnd E step s₀ ended t := by
  refine h.failsWith t.terminal (fun v hv => ?_) failure
  rw [h.terminal, open_] at hv
  cases hv

theorem succeeds (h : Acting step s₀ spent added t) (open_ : s₀.terminal = none) (sound : ∀ d ∈ added, Sound E d)
    {result : Dispatch} (hresult : result.status = .succeeded) : LeafEnd E step s₀ (.ok result) t :=
  ⟨spent, added, {
    h.toCounting with
    permitted := h.permitted
    sent := h.sent
    turn := h.turn
    terminal := by
      intro v hv
      rw [h.terminal, open_] at hv
      cases hv
    dispatched := by
      rintro result' ⟨⟩ hskipped
      rw [hresult] at hskipped
      cases hskipped
    succeeded := fun _ _ _ => ⟨h.terminal.trans open_, h.needsReview, sound⟩
    review := fun _ _ hmem => (h.steady false hmem).elim }⟩

theorem begin (step : Step) (s₀ : Engine W) : Acting step s₀ 0 [] s₀ where
  toDoing := Doing.begin s₀
  permitted := by
    intro d hd
    cases hd
  sent := le_rfl
  turn := Nat.zero_le _
  steady := fun _ hmem => by cases hmem

theorem note (h : Acting step s₀ spent added t) (d : Deed W) (w : W) (permitted : d.Permitted step)
    (quiet : d.isSent = false) (steady : ∀ confirmed, d ≠ .interrupted confirmed) :
    Acting step s₀ spent (added ++ [d]) { t with world := w, deeds := t.deeds ++ [d] } where
  toDoing := h.toDoing.note d w
  permitted := by
    intro d' hd
    rcases List.mem_append.1 hd with hd | hd
    · exact h.permitted d' hd
    · exact List.mem_singleton.1 hd ▸ permitted
  sent := by
    unfold sends
    rw [List.countP_append, List.countP_singleton, quiet]
    exact h.sent
  turn := h.turn
  steady := by
    intro confirmed hmem
    rcases List.mem_append.1 hmem with hmem | hmem
    · exact h.steady confirmed hmem
    · exact steady confirmed (List.mem_singleton.1 hmem).symm

/-- A step may look at its own assertions. -/
theorem evaluated {satisfied : Bool} {u : Engine W} (h : Acting step s₀ spent added t)
    (hu : Evaluating E s₀ spent step.base.assertions satisfied added u) :
    ∃ more, Acting step s₀ spent (added ++ more) u ∧ (satisfied = true → ∀ d ∈ more, Sound E d) := by
  obtain ⟨more, hu, looks, sound⟩ := hu
  have own {c : Condition} (hc : c ∈ step.base.assertions) : c ∈ step.conditions.map Prod.snd := by
    unfold Step.conditions
    rw [List.map_append, List.map_map]
    refine List.mem_append_left _ ?_
    have hmap : step.base.assertions.zipIdx.map Prod.fst = step.base.assertions := List.zipIdx_map_fst ..
    rw [← hmap] at hc
    exact hc
  have unsent : sends more = 0 := by
    refine List.countP_eq_zero.2 (fun d hd => ?_)
    have := looks d hd
    cases d <;> first | exact this.elim | exact Bool.false_ne_true
  refine ⟨more, ⟨hu, fun d hd => ?_, ?_, h.turn, fun confirmed hmem => ?_⟩, fun hs => (sound hs).1⟩
  · rcases List.mem_append.1 hd with hd | hd
    · exact h.permitted d hd
    · have := looks d hd
      cases d <;> first | exact own this | exact this.elim
  · unfold sends at unsent ⊢
    rw [List.countP_append, unsent]
    exact h.sent
  · exact (List.mem_append.1 hmem).elim (h.steady confirmed) (fun hmem => looks _ hmem)

end Acting

section Dispatches
variable {step : Step} {s₀ t : Engine W} {spent : Nat} {added : List (Deed W)} {deadline : ℚ}

theorem ends_checkAssertions (h : Acting step s₀ spent added t) (open_ : s₀.terminal = none)
    (sound : ∀ d ∈ added, Sound E d) (complaint : String) : Ends E step s₀ (checkAssertions E step complaint) t := by
  unfold Ends checkAssertions
  rw [Op.wp_bind]
  refine Op.wp_mono (wp_evaluate step.base.assertions h.toDoing) (fun r u hr => ?_) (fun e u hr => ?_)
  · obtain ⟨more, hu, soundMore⟩ := h.evaluated hr.1
    refine Op.wp_ite (fun hsatisfied => ?_) (fun _ => hu.fails open_ rfl)
    refine hu.succeeds open_ (fun d hd => ?_) rfl
    exact (List.mem_append.1 hd).elim (sound d) (soundMore hsatisfied d)
  · obtain ⟨more, hu, -⟩ := h.evaluated hr
    exact hu.fails open_ trivial

/-- The check after a call: what went past the deadline is a failure, else what is next may end the step. -/
theorem ends_deadlineOverrun (h : Acting step s₀ spent added t) (open_ : s₀.terminal = none) {next : Task W Dispatch}
    (hnext : ∀ w, (E.ports.now t.world).1 ≤ deadline → Ends E step s₀ next { t with world := w }) :
    Ends E step s₀ (do
      match ← deadlineOverrun E step deadline with
      | some overrun => return { status := .failed, detail := some overrun }
      | none => next) t := by
  unfold Ends deadlineOverrun
  rw [Op.wp_bind, Op.wp_bind, wp_now]
  refine Op.wp_ite (fun hle => hnext _ (sub_nonpos.1 hle)) (fun _ => ?_)
  rw [Op.wp_bind]
  refine wp_emit (fun w _ => ?_) (fun e w _ => (h.world w).fails open_ trivial)
  rw [Op.wp_bind, wp_now]
  refine Op.wp_ite (fun _ => ?_) (fun _ => (h.world _).fails open_ rfl)
  rw [Op.wp_bind, wp_setTerminal]
  refine (h.world (E.ports.now w).2).failsWith _ (fun v hv => ?_) rfl
  cases hv
  exact fun heq => by cases heq

/-- An interrupt is asked for once, and what it came to is reported. -/
theorem wp_interruptTarget {reason : String} {ok : Bool → Engine W → Prop} {err : Exn → Engine W → Prop}
    (hok : ∀ confirmed w interrupt, ok confirmed
      { t with world := w, deeds := t.deeds ++ [.interrupted confirmed], interrupt := interrupt })
    (herr : ∀ e confirmed w interrupt, (E.Guarded → e.isBoundary = true) →
      err e { t with world := w, deeds := t.deeds ++ [.interrupted confirmed], interrupt := interrupt }) :
    (interruptTarget E reason).wp t ok err := by
  have reported (answer : Except Exn Value) (w : W) (interrupt : Option Document) (event : EngineEvent) :
      (emit E event).wp
        { t with world := w, deeds := t.deeds ++ [.interrupted (isConfirmed answer)], interrupt := interrupt }
        (fun _ u => ok (isConfirmed answer) u) err :=
    wp_emit (fun w' _ => hok _ w' interrupt) (fun e w' guarded => herr e _ w' interrupt guarded)
  unfold interruptTarget
  rw [Op.wp_bind, Op.wp_result_iff]
  refine wp_perform (fun a w _ => ?_) (fun e w _ => ?_)
  · rw [Op.wp_bind, Op.wp_modify, Op.wp_bind]
    exact reported (.ok a) w _ _
  · rw [Op.wp_bind, Op.wp_modify, Op.wp_bind]
    exact reported (.error e) w _ _

theorem ends_timeoutOutcome (h : Acting step s₀ spent added t) (open_ : s₀.terminal = none) :
    Ends E step s₀ (timeoutOutcome E step) t := by
  -- what is common to every end: the interrupt is done, and a verdict is left if it is not confirmed
  have failing {confirmed : Bool} {u : Engine W} {ended : Except Exn Dispatch}
      (hu : Counting s₀ spent (added ++ [.interrupted confirmed]) u) (failure : IsFailure ended)
      (terminal : ∀ v ∈ u.terminal, v.1 ≠ .completed)
      (review : E.Guarded → isBoundaryEnd ended = false → confirmed = false →
        u.needsReview = true ∧ ∃ reason, u.terminal = some (.needsReview, reason)) : LeafEnd E step s₀ ended u := by
    refine ⟨spent, _, { hu with permitted := ?_, sent := ?_, turn := h.turn, terminal := terminal, dispatched := ?_, succeeded := ?_, review := ?_ }⟩
    · intro d hd
      rcases List.mem_append.1 hd with hd | hd
      · exact h.permitted d hd
      · rw [List.mem_singleton.1 hd]
        trivial
    · unfold sends
      rw [List.countP_append]
      exact h.sent
    · rintro result rfl hskipped
      have hfailed : result.status = .failed := failure
      rw [hskipped] at hfailed
      cases hfailed
    · rintro result rfl hsucceeded
      have hfailed : result.status = .failed := failure
      rw [hsucceeded] at hfailed
      cases hfailed
    · intro guarded inside hmem
      rcases List.mem_append.1 hmem with hmem | hmem
      · exact (h.steady false hmem).elim
      · injection List.mem_singleton.1 hmem with heq
        exact review guarded inside heq.symm
  have noVerdict : ∀ v ∈ t.terminal, v.1 ≠ Status.completed := by
    intro v hv
    rw [h.terminal, open_] at hv
    cases hv
  have counted (confirmed : Bool) (w : W) := (h.toDoing.note (.interrupted confirmed) w).toCounting
  unfold Ends timeoutOutcome
  rw [Op.wp_bind]
  refine wp_interruptTarget (fun confirmed w interrupt => ?_) (fun e confirmed w interrupt guarded => ?_)
  · refine Op.wp_ite (fun hconfirmed => ?_) (fun hconfirmed => ?_)
    · rw [Op.wp_bind, wp_setTerminal]
      refine failing { counted confirmed w with } rfl (fun v hv => ?_) (fun _ _ hnot => ?_)
      · cases hv
        exact fun heq => by cases heq
      · rw [hconfirmed] at hnot
        cases hnot
    · rw [Op.wp_bind, Op.wp_modify]
      refine failing { counted confirmed w with } rfl (fun v hv => ?_) (fun _ _ _ => ⟨rfl, _, rfl⟩)
      cases hv
      exact fun heq => by cases heq
  · refine failing { counted confirmed w with } trivial noVerdict (fun hguarded inside _ => ?_)
    rw [isBoundaryEnd, guarded hguarded] at inside
    cases inside

/-! ### Sending -/

theorem ends_judgeAnswer (h : Acting step s₀ spent added t) (open_ : s₀.terminal = none)
    (before : ∀ d ∈ added, (E.ports.now t.world).1 ≤ deadline → Sound E d) (answer : List (String × Value)) :
    Ends E step s₀ (judgeAnswer E step deadline answer) t := by
  unfold judgeAnswer
  refine Op.wp_ite (fun _ => ends_timeoutOutcome h open_) (fun _ => ends_deadlineOverrun h open_ (fun w hread => ?_))
  have checked (complaint : String) := ends_checkAssertions (h.world w) open_ (fun d hd => before d hd hread) complaint
  split
  · refine Op.wp_ite (fun _ => (h.world w).fails open_ rfl) (fun _ => ?_)
    refine Op.wp_ite (fun _ => ?_) (fun _ => ?_)
    · rw [Op.wp_bind, wp_setTerminal]
      refine (h.world w).failsWith _ (fun v hv => ?_) rfl
      cases hv
      exact fun heq => by cases heq
    · exact Op.wp_ite (fun _ => (h.world w).fails open_ rfl) (fun _ => checked _)
  · exact checked _

theorem wp_sendText {message : String} {inputRef : Option String} {ok : String → Engine W → Prop}
    {err : Exn → Engine W → Prop} (hok : ∀ text, ok text t) (herr : ∀ e, err e t) :
    (sendText E step message inputRef).wp t ok err := by
  unfold sendText
  cases inputRef with
  | none => exact hok message
  | some reference =>
    rw [Op.wp_bind, Op.wp_gets]
    cases t.stepResults.get reference with
    | none => exact herr _
    | some produced =>
      dsimp only
      cases (produced.get? "output").bind Value.text? with
      | none => exact hok message
      | some text => exact hok _

theorem ends_dispatchSend (open_ : s₀.terminal = none) (send : step.kind = .sendMessage) (message : String)
    (inputRef : Option String) : Ends E step s₀ (dispatchSend E step message inputRef deadline) s₀ := by
  have effect : hasSideEffect step = true := by
    cases step <;> first | rfl | cases send
  unfold dispatchSend Ends
  rw [Op.wp_bind]
  refine wp_sendText (fun text => ?_) (fun e => (Acting.begin step s₀).fails open_ trivial)
  -- from here on the turn is taken
  have turned : Acting step s₀ 1 [] { s₀ with turns := s₀.turns + 1 } := {
    Acting.begin step s₀ with
    turns := rfl
    sent := Nat.zero_le _
    turn := by rw [allowance, if_pos send] }
  rw [Op.wp_bind, Op.wp_modify, Op.wp_bind, Op.wp_gets, Op.wp_bind, wp_remainingSeconds, Op.wp_bind]
  refine wp_emit (fun w _ => ?_) (fun e w _ => (turned.world w).fails open_ trivial)
  rw [Op.wp_bind]
  have sent (w' : W) : Acting step s₀ 1 [.sent deadline w']
      { s₀ with turns := s₀.turns + 1, world := w', deeds := s₀.deeds ++ [.sent deadline w'] } := {
    turned.toDoing.note (.sent deadline w') w' with
    permitted := by
      intro d hd
      rw [List.mem_singleton.1 hd]
      exact fun _ => effect
    sent := le_rfl
    turn := turned.turn
    steady := by
      intro confirmed hmem
      cases List.mem_singleton.1 hmem }
  refine wp_perform (fun answer w' _ => ?_) (fun e w' _ => (sent w').fails open_ trivial)
  cases answer with
  | obj answer =>
    show Op.wp (Op.modify _ >>= fun _ => judgeAnswer E step deadline answer) _ _ _
    rw [Op.wp_bind, Op.wp_modify]
    refine ends_judgeAnswer ((sent w').keep w' _ _ _ _) open_ (fun d hd hread => ?_) answer
    rw [List.mem_singleton.1 hd]
    exact ⟨w', .inl rfl, hread⟩
  | _ => exact (sent w').fails open_ trivial

/-! ### Tools, checkpoints and events -/

theorem ends_expired (h : Acting step s₀ spent added t) (open_ : s₀.terminal = none) :
    Ends E step s₀ (expired E step) t := by
  unfold expired Ends
  rw [Op.wp_bind, wp_remainingSeconds, Op.wp_bind]
  exact wp_emit (fun w _ => ends_timeoutOutcome (h.world w) open_) (fun e w _ => (h.world w).fails open_ trivial)

theorem ends_dispatchTool (open_ : s₀.terminal = none) {toolMode : ToolMode}
    (effect : toolMode ≠ .deny → hasSideEffect step = true) (tool : String) (arguments : Value) :
    Ends E step s₀ (dispatchTool E step tool arguments toolMode deadline) s₀ := by
  have fresh := Acting.begin step s₀
  unfold dispatchTool Ends
  rw [Op.wp_bind, wp_now]
  refine Op.wp_ite (fun _ => ends_expired (fresh.world _) open_) (fun _ => ?_)
  rw [Op.wp_bind, Op.wp_modify, Op.wp_bind, wp_remainingSeconds, Op.wp_bind]
  refine wp_emit (fun w _ => ?_) (fun e w _ => ?_)
  · rw [Op.wp_bind]
    have invoked (w' : W) := fresh.note (.invoked toolMode deadline w') w' (fun h => effect (of_decide_eq_true h)) rfl
      (fun _ h => by cases h)
    refine wp_perform (fun result w' _ => ?_) (fun e w' _ => ?_)
    · rw [Op.wp_bind, Op.wp_modify]
      refine ends_deadlineOverrun ((invoked w').keep w' _ _ _ _) open_
        (fun w hread => ends_checkAssertions ((invoked w').keep w _ _ _ _) open_ (fun d hd => ?_) _)
      rw [List.mem_singleton.1 hd]
      exact ⟨w', .inl rfl, hread⟩
    · exact ((invoked w').keep w' _ _ _ _).fails open_ trivial
  · exact (fresh.keep w _ _ _ _).fails open_ trivial

theorem ends_dispatchCheckpoint (open_ : s₀.terminal = none) (label : Option String) :
    Ends E step s₀ (dispatchCheckpoint E step label) s₀ := by
  have fresh := Acting.begin step s₀
  unfold dispatchCheckpoint Ends
  rw [Op.wp_bind]
  refine wp_onWorld (fun taken _ => ?_) (fun e _ => (fresh.world _).fails open_ trivial)
  rw [Op.wp_bind, Op.wp_modify, Op.wp_bind]
  refine wp_emit (fun w _ => ?_) (fun e w _ => ?_)
  · exact ends_checkAssertions (fresh.keep w _ _ _ _) open_ (fun d hd => by cases hd) _
  · exact (fresh.keep w _ _ _ _).fails open_ trivial

theorem ends_dispatchEvent (open_ : s₀.terminal = none) (effect : hasSideEffect step = true) (event : String)
    (payload : Value) : Ends E step s₀ (dispatchEvent E step event payload deadline) s₀ := by
  have fresh := Acting.begin step s₀
  unfold dispatchEvent Ends
  rw [Op.wp_bind, wp_now]
  refine Op.wp_ite (fun _ => ends_expired (fresh.world _) open_) (fun _ => ?_)
  rw [Op.wp_bind]
  have applied (w' : W) := fresh.note (.applied deadline w') w' (fun _ => effect) rfl (fun _ h => by cases h)
  refine wp_perform (fun result w' _ => ?_) (fun e w' _ => ?_)
  · rw [Op.wp_bind, Op.wp_modify, Op.wp_bind]
    -- the sink is told of the event before the clock is read
    refine wp_emit (fun w told => ?_) (fun e w _ => ((applied w').keep w _ _ _ _).fails open_ trivial)
    refine ends_deadlineOverrun ((applied w').keep w _ _ _ _) open_
      (fun w hread => ends_checkAssertions ((applied w').keep w _ _ _ _) open_ (fun d hd => ?_) _)
    rw [List.mem_singleton.1 hd]
    exact ⟨_, told, hread⟩
  · exact ((applied w').keep w' _ _ _ _).fails open_ trivial

end Dispatches

end

end Motte.Scenario
