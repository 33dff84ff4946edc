import Motte.Agent.Conduct

/-! How a turn ends.

A step goes on, or stops with an answer, only when no cancellation and no end of the time
was seen in it. That the rounds suffice is the step budget: a step that goes on was one
of the steps that it allows. -/
namespace Motte.Agent
open Foundation Gate

section
variable {W : Type} {E : Setup W} {s₀ s : Runtime W}

/-! ### Looking at the end -/

theorem cancelled_keeps (h : Kept E s₀ s) : Keeps E s₀ (cancelled E) s (fun b t => b = false → Quiet s t) := by
  refine .next poll_quietly h (fun _ t ht hkept => .read ?_)
  have hanswer (answer : Bool) (u : Runtime W) (hu : Quiet t u) (hkept' : Kept E s₀ u) :
      Keeps E s₀ (if answer then do note .observed; return true else return false) u
        (fun b t => b = false → Quiet s t) := by
    refine .ite (fun _ => ?_) (fun _ => ?_)
    · exact .change (.pure hkept'.observe (fun hfalse => by cases hfalse))
    · exact .pure hkept' (fun _ => ht.trans hu)
  exact .ite (fun _ => .next (.pure true) hkept hanswer) (fun _ => .next askCancel_quietly hkept hanswer)

theorem turnDeadlineExpired_keeps (h : Kept E s₀ s) (step : Nat) :
    Keeps E s₀ (turnDeadlineExpired E step) s (fun r t =>
      (r = none → Quiet s t) ∧ ∀ x, r = some x → x.1 ≠ .finalAnswer) := by
  refine .read ?_
  split
  · exact .pure h ⟨fun _ => .refl s, fun _ hx => by cases hx⟩
  · refine .next now_quietly h (fun time t ht hkept => .ite (fun _ => ?_) (fun _ => ?_))
    · exact .pure hkept ⟨fun _ => ht, fun _ hx => by cases hx⟩
    · refine .change (.next (record_quietly _ _) hkept.observe (fun _ u _ hkept' => ?_))
      refine .next (spend_quietly (fun _ => rfl)) hkept' (fun _ v _ hkept'' =>
        .pure hkept'' ⟨fun hnone => (by cases hnone), ?_⟩)
      intro x hx
      cases hx
      exact fun hreason => by cases hreason

theorem usageStop_reason {spent : Spent} {limits : Limits} {reason : Reason} (h : spent.usageStop limits = some reason) :
    reason ≠ .finalAnswer := by
  unfold Spent.usageStop at h
  split at h
  · cases h
    exact fun hreason => by cases hreason
  · split at h
    · cases h
      exact fun hreason => by cases hreason
    · cases h

theorem toolCallAllowed_reason {spent : Spent} {limits : Limits} {reason : Reason}
    (h : spent.toolCallAllowed limits = some reason) : reason ≠ .finalAnswer := by
  unfold Spent.toolCallAllowed at h
  split at h
  · cases h
    exact fun hreason => by cases hreason
  · cases h

theorem wallOrUsageStop_keeps (h : Kept E s₀ s) :
    Keeps E s₀ (wallOrUsageStop E) s (fun r t => Quiet s t ∧ r ≠ some .finalAnswer) := by
  refine .next wallOver_quietly h (fun late t ht hkept => .ite (fun _ => ?_) (fun _ => ?_))
  · exact .pure hkept ⟨ht, fun hreason => by cases hreason⟩
  · exact ⟨hkept, ht, fun hreason => usageStop_reason hreason rfl⟩

theorem stepAllowed_keeps (h : Kept E s₀ s) (step : Nat) :
    Keeps E s₀ (stepAllowed E step) s (fun r t =>
      Quiet s t ∧ r ≠ some .finalAnswer ∧ (r = none → step ≤ E.limits.maxSteps)) := by
  refine .ite (fun _ => ?_) (fun hallowed => ?_)
  · exact .pure h ⟨.refl s, fun hreason => (by cases hreason), fun hnone => (by cases hnone)⟩
  · exact (wallOrUsageStop_keeps h).mono (fun _ _ _ ht => ⟨ht.1, ht.2, fun _ => Nat.le_of_not_lt hallowed⟩)

/-! ### The model -/

theorem recordTimeout_keeps (h : Kept E s₀ s) (step : Nat) :
    Keeps E s₀ (recordTimeout E step) s (fun _ _ => True) := by
  refine .change (.next (record_quietly _ _) h.observe (fun _ t _ hkept => ?_))
  have hstop : (some Reason.perCallTimeout) ≠ some .finalAnswer := fun hreason => by cases hreason
  refine .change (@Keeps.mono _ _ _ _ _ _ (fun _ _ => True) _ ?_ (fun _ _ _ _ => trivial))
  have hspend := spend_quietly (W := W) (f := fun p => { p with perCallTimeoutEnforced := true }) (fun _ => rfl)
  exact Op.wp_mono (hspend _) (fun _ _ ht => ⟨(hkept.setStop hstop).quiet ht, trivial⟩)
    (fun _ _ ht => (hkept.setStop hstop).quiet ht)

/-- A call of the model that was given up. -/
theorem timedOut_keeps (h : Kept E s₀ s) (step : Nat) :
    Keeps E s₀ (do recordTimeout E step; return none : Task W (Option Document)) s (fun r t => r.isSome → t.Clear) :=
  (recordTimeout_keeps h step).bind (fun _ _ hkept _ => .pure hkept (fun hsome => by cases hsome))

/-- The guard of a model call: the step that it is made in has counted it. -/
structure Callable (E : Setup W) (s : Runtime W) : Prop where
  clear : s.Clear
  counted : calls s.deeds < s.session.steps
  allowed : s.session.steps ≤ E.limits.maxSteps

theorem Callable.quiet {t : Runtime W} (h : Callable E s) (hq : Quiet s t) : Callable E t where
  clear := h.clear.quiet hq
  counted := by rw [hq.deeds, hq.steps]; exact h.counted
  allowed := by rw [hq.steps]; exact h.allowed

/-- The model is called with all that was said. -/
theorem call_keeps {α : Type} (h : Kept E s₀ s) (guard : Callable E s) {messages : List Message}
    (hmessages : messages = s.session.messages) {f : Unit → Task W α} {ok : α → Runtime W → Prop}
    (hf : ∀ t, Kept E s₀ t → t.Clear → Keeps E s₀ (f ()) t ok) : Keeps E s₀ (note (.called messages) >>= f) s ok := by
  subst hmessages
  exact .change (hf _ (h.call guard.counted guard.allowed) (guard.clear.act (fun hd => by cases hd)))

theorem completeOrTimeout_keeps (h : Kept E s₀ s) (guard : Callable E s) {request : ModelRequest}
    (hmessages : request.messages = s.session.messages) (step : Nat) :
    Keeps E s₀ (completeOrTimeout E request step) s (fun r t => r.isSome → t.Clear) := by
  refine call_keeps h guard hmessages (fun t hkept clear => ?_)
  refine .next (.result (onWorld_quietly _)) hkept (fun answer u hu hkept' => ?_)
  split
  · exact .pure hkept' (fun _ => clear.quiet hu)
  · exact timedOut_keeps hkept' step
  · exact .raise hkept'

theorem completeOnThread_keeps (h : Kept E s₀ s) (guard : Callable E s) {request : ModelRequest}
    (hmessages : request.messages = s.session.messages) (remaining : ℚ) (step : Nat) :
    Keeps E s₀ (completeOnThread E request remaining step) s (fun r t => r.isSome → t.Clear) := by
  refine call_keeps h guard hmessages (fun t hkept clear => ?_)
  refine .next (.result (onWorld_quietly _)) hkept (fun answer u hu hkept' => ?_)
  split
  · exact timedOut_keeps hkept' step
  · exact .next (spend_quietly (fun _ => rfl)) hkept' (fun _ v hv hkept'' =>
      .pure hkept'' (fun _ => (clear.quiet hu).quiet hv))
  · exact timedOut_keeps hkept' step
  · exact .raise hkept'

theorem dispatchModelCall_keeps (h : Kept E s₀ s) (guard : Callable E s) {request : ModelRequest}
    (hmessages : request.messages = s.session.messages) (step : Nat) :
    Keeps E s₀ (dispatchModelCall E request step) s (fun r t => r.isSome → t.Clear) := by
  unfold dispatchModelCall
  refine .ite (fun _ => ?_) (fun _ => ?_)
  · refine .next turnOver_quietly h (fun late t ht hkept => .ite (fun _ => timedOut_keeps hkept step) (fun _ => ?_))
    exact completeOrTimeout_keeps hkept (guard.quiet ht) (hmessages.trans ht.messages.symm) step
  · refine .next effectiveCallDeadline_quietly h (fun deadline t ht hkept => ?_)
    have hsaid := hmessages.trans ht.messages.symm
    split
    · refine call_keeps hkept (guard.quiet ht) hsaid (fun u hkept' clear => ?_)
      exact Op.wp_mono (onWorld_quietly _ u) (fun _ _ hv => ⟨hkept'.quiet hv, fun _ => clear.quiet hv⟩)
        (fun _ _ hv => hkept'.quiet hv)
    · refine .next now_quietly hkept (fun time u hu hkept' => .ite (fun _ => timedOut_keeps hkept' step) (fun _ => ?_))
      exact completeOnThread_keeps hkept' ((guard.quiet ht).quiet hu) (hsaid.trans hu.messages.symm) _ step

theorem callModel_keeps (h : Kept E s₀ s) (guard : Callable E s) (step : Nat) :
    Keeps E s₀ (callModel E step) s (fun r t => r.isSome → t.Clear) := by
  refine .read (.next (record_quietly _ _) h (fun _ t ht hkept => ?_))
  refine (dispatchModelCall_keeps hkept (guard.quiet ht) ht.messages.symm step).bind (fun r u hkept' clear => ?_)
  split
  · exact .pure hkept' (fun hsome => by cases hsome)
  · refine .next (record_quietly _ _) hkept' (fun _ v hv hkept'' => .change (.pure (hkept''.setStop ?_) (fun _ => ?_)))
    · exact fun hreason => by cases hreason
    · exact ((clear rfl).quiet hv : v.Clear)

/-! ### Tools -/

/-- How the call of a tool ends: the rest of the turn is not stopped by it, or not with an answer. -/
def ToolEnd (r : Option Reason) (t : Runtime W) : Prop := t.Clear ∧ r ≠ some .finalAnswer

theorem say_keeps {α : Type} (h : Kept E s₀ s) {m : Message} (hm : E.mode = .nativeTool → m.isAnswer = false)
    {f : Unit → Task W α} {ok : α → Runtime W → Prop}
    (hf : ∀ t, Kept E s₀ t → t.deeds = s.deeds → t.session.messages = s.session.messages ++ [m] →
      Keeps E s₀ (f ()) t ok) : Keeps E s₀ (say m >>= f) s ok :=
  .change (hf _ (h.say hm) rfl rfl)

/-- A message to the model ends the call of a tool. -/
theorem told_keeps (h : Kept E s₀ s) (clear : s.Clear) {m : Message} (hm : E.mode = .nativeTool → m.isAnswer = false)
    (type : String) (payload : List (String × Value)) :
    Keeps E s₀ (do record E type payload; say m; return none : Task W (Option Reason)) s ToolEnd := by
  refine .next (record_quietly _ _) h (fun _ t ht hkept => say_keeps hkept hm (fun u hkept' hdeeds _ => ?_))
  refine .pure hkept' ⟨?_, fun hreason => by cases hreason⟩
  unfold Runtime.Clear
  rw [hdeeds]
  exact clear.quiet ht

theorem deny_keeps (h : Kept E s₀ s) (clear : s.Clear) {m : Message} (hm : E.mode = .nativeTool → m.isAnswer = false)
    (step : Nat) (name : String) (details : List (String × Value)) :
    Keeps E s₀ (deny E step name details m) s ToolEnd :=
  told_keeps h clear hm _ _

/-- The guard of a tool: it is counted, and its id was not used. -/
structure Runnable (callId : Option String) (s : Runtime W) : Prop where
  clear : s.Clear
  made : tools s.deeds < s.spent.toolCallsMade
  id : ∀ id ∈ callId, id ∈ s.session.executedCallIds ∧ id ∉ nativeIds s.deeds

theorem Runnable.quiet {t : Runtime W} {callId : Option String} (h : Runnable callId s) (hq : Quiet s t) :
    Runnable callId t where
  clear := h.clear.quiet hq
  made := by rw [hq.deeds, hq.made]; exact h.made
  id := by rw [hq.deeds, hq.ids]; exact h.id

/-- A tool is run; its result, or its failure, is told to the model. -/
theorem runTool_keeps {α : Type} (h : Kept E s₀ s) {callId : Option String} (guard : Runnable callId s) (name : String)
    (argument : Value) {f : Except Fault Value → Task W α} {ok : α → Runtime W → Prop}
    (hf : ∀ answer t, Kept E s₀ t → t.Clear → Keeps E s₀ (f answer) t ok) :
    Keeps E s₀ (Op.result (runTool E callId name argument) >>= f) s ok := by
  refine Op.wp_bind.2 (Op.wp_result_iff.2 (Op.wp_bind.2 (Op.wp_modify.2 ?_)))
  have hkept := h.execute guard.clear callId name guard.made guard.id
  have hclear := guard.clear.act (d := .executed callId name) (fun hd => by cases hd)
  exact Op.wp_mono (onWorld_quietly _ _)
    (fun a t ht => hf (.ok a) t (hkept.quiet ht) (hclear.quiet ht))
    (fun e t ht => hf (.error e) t (hkept.quiet ht) (hclear.quiet ht))

theorem executeTool_keeps (h : Kept E s₀ s) (clear : s.Clear) (room : s.spent.toolCallAllowed E.limits = none)
    {callId : String} (hid : callId ∈ s.session.executedCallIds ∧ callId ∉ nativeIds s.deeds) (name : String)
    (arguments : Value) (step : Nat) : Keeps E s₀ (executeTool E name arguments callId step) s ToolEnd := by
  have guard : Runnable (some callId) { s with spent := { s.spent with toolCallsMade := s.spent.toolCallsMade + 1 } } :=
    ⟨clear, Nat.lt_succ_of_le h.budgeted.made, fun id hmem => by cases hmem; exact hid⟩
  refine .change (.next (record_quietly _ _) (h.count room) (fun _ t ht hkept => ?_))
  refine runTool_keeps hkept (guard.quiet ht) name arguments (fun answer u hkept' clear' => ?_)
  split
  · exact told_keeps hkept' clear' (fun _ => rfl) _ _
  · refine .ite (fun _ => ?_) (fun _ => .raise hkept')
    exact told_keeps hkept' clear' (fun _ => rfl) _ _

theorem callDeclared_keeps (h : Kept E s₀ s) (clear : s.Clear) (room : s.spent.toolCallAllowed E.limits = none)
    {callId : String} (hid : callId ∈ s.session.executedCallIds ∧ callId ∉ nativeIds s.deeds) (name : String)
    (arguments : List (String × Value)) (step : Nat) :
    Keeps E s₀ (callDeclared E name arguments callId step) s ToolEnd := by
  refine .ite (fun _ => deny_keeps h clear (fun _ => rfl) _ _ _) (fun _ => .ite (fun _ => ?_) (fun _ => ?_))
  · exact deny_keeps h clear (fun _ => rfl) _ _ _
  · exact executeTool_keeps h clear room hid name _ step

theorem runNativeToolCall_keeps (h : Kept E s₀ s) (clear : s.Clear) (call : Value) (step : Nat) :
    Keeps E s₀ (runNativeToolCall E call step) s ToolEnd := by
  unfold runNativeToolCall
  refine .ite (fun _ => deny_keeps h clear (fun _ => rfl) _ _ _) (fun _ => .read (.ite (fun _ => ?_) (fun hnew => ?_)))
  · exact deny_keeps h clear (fun _ => rfl) _ _ _
  · -- the id is known from here on, though nothing was executed under it
    refine .change ?_
    have hkept := h.register (if (call.member "id").truthy then E.str (call.member "id") else "")
    split
    · exact deny_keeps hkept clear (fun _ => rfl) _ _ _
    · refine .read ?_
      split
      · rename_i reason hreason
        exact .pure hkept ⟨clear, fun hfinal => toolCallAllowed_reason hreason (Option.some_inj.1 hfinal)⟩
      · rename_i room
        refine callDeclared_keeps hkept clear room ⟨List.mem_append_right _ (List.mem_singleton_self _), fun hold => ?_⟩ _ _ _
        exact hnew (List.contains_iff_mem.2 (h.budgeted.known _ hold))

theorem noteLegacyCall_quietly (step : Nat) : Quietly (noteLegacyCall step : Task W String) :=
  .bind (.modify (fun _ => ⟨rfl, rfl, rfl, rfl, rfl, rfl, rfl⟩)) (fun _ => .bind (.gets _) (fun _ => .pure _))

theorem runLegacyTool_keeps (h : Kept E s₀ s) (clear : s.Clear) (decision : Value) (step : Nat) :
    Keeps E s₀ (runLegacyTool E decision step) s ToolEnd := by
  unfold runLegacyTool
  refine .read ?_
  split
  · rename_i reason hreason
    exact .pure h ⟨clear, fun hfinal => toolCallAllowed_reason hreason (Option.some_inj.1 hfinal)⟩
  · rename_i room
    refine .ite (fun _ => deny_keeps h clear (fun _ => rfl) _ _ _) (fun _ => ?_)
    refine @Keeps.bind _ _ _ _ _ _ _ _ (fun _ t => Quiet s t ∧ t.spent.toolCallAllowed E.limits = none) _ ?_
      (fun callId t hkept ⟨ht, room'⟩ => ?_)
    · exact ⟨h.quiet ⟨rfl, rfl, rfl, rfl, rfl, rfl, rfl⟩, ⟨rfl, rfl, rfl, rfl, rfl, rfl, rfl⟩, room⟩
    · have hclear : t.Clear := clear.quiet ht
      have guard : Runnable none { t with spent := { t.spent with toolCallsMade := t.spent.toolCallsMade + 1 } } :=
        ⟨hclear, Nat.lt_succ_of_le hkept.budgeted.made, fun id hmem => by cases hmem⟩
      refine .change (.next (record_quietly _ _) (hkept.count room') (fun _ u hu hkept' => ?_))
      refine runTool_keeps hkept' (guard.quiet hu) _ _ (fun answer v hkept'' clear' => ?_)
      split
      · exact told_keeps hkept'' clear' (fun _ => rfl) _ _
      · refine .ite (fun _ => ?_) (fun _ => .raise hkept'')
        exact told_keeps hkept'' clear' (fun _ => rfl) _ _

/-! ### One step -/

/-- The answer of a turn is the last thing that was said in it, as the model wrote it. -/
def Answered (E : Setup W) (s₀ t : Runtime W) (finalOutput : Value) : Prop :=
  ∃ ms response decision, t.session.messages = s₀.session.messages ++ ms ++ [.assistant (E.str (.str response))] ∧
    parseDecision E (.str response) = .ok (some decision) ∧ isFinal decision = true ∧
    finalOutput = decision.member "answer"

/-- A turn ended for this reason. -/
structure Concluded (E : Setup W) (s₀ t : Runtime W) (reason : Reason) (finalOutput : Value) : Prop where
  clear : reason = .finalAnswer → t.Clear
  answered : reason = .finalAnswer → E.mode = .legacyJson → Answered E s₀ t finalOutput

theorem Concluded.quiet {t u : Runtime W} {reason : Reason} {finalOutput : Value}
    (h : Concluded E s₀ t reason finalOutput) (hq : Quiet t u) : Concluded E s₀ u reason finalOutput where
  clear := fun hreason => (h.clear hreason).quiet hq
  answered := by
    intro hreason hmode
    obtain ⟨ms, response, decision, hmessages, hdecision⟩ := h.answered hreason hmode
    exact ⟨ms, response, decision, hq.messages.trans hmessages, hdecision⟩

/-- How a step of the turn ends. -/
def FlowEnd (E : Setup W) (s₀ : Runtime W) : Flow → Runtime W → Prop
  | .again, t => t.Clear
  | .stop reason _ finalOutput, t => Concluded E s₀ t reason finalOutput

theorem halt_end {reason : Reason} (hreason : reason ≠ .finalAnswer) (detail : Option String) :
    FlowEnd E s₀ (halt reason detail) s :=
  ⟨fun hfinal => (hreason hfinal).elim, fun hfinal _ => (hreason hfinal).elim⟩

theorem halt_keeps (h : Kept E s₀ s) {reason : Reason} (hreason : reason ≠ .finalAnswer) (detail : Option String) :
    Keeps E s₀ (pure (halt reason detail)) s (FlowEnd E s₀) :=
  .pure h (halt_end hreason detail)

theorem runCalls_keeps (h : Kept E s₀ s) (clear : s.Clear) (step : Nat) (toolCalls : List Value) :
    Keeps E s₀ (runCalls E step toolCalls) s (FlowEnd E s₀) := by
  induction toolCalls generalizing s with
  | nil => exact .pure h clear
  | cons call rest ih =>
    refine (cancelled_keeps h).bind (fun stopped t hkept ht => .ite (fun _ => ?_) (fun hgo => ?_))
    · exact halt_keeps hkept (fun hreason => by cases hreason) _
    · have hclear := clear.quiet (ht (by simpa using hgo))
      refine (turnDeadlineExpired_keeps hkept step).bind (fun r u hkept' hu => ?_)
      split
      · exact halt_keeps hkept' (hu.2 _ rfl) _
      · refine (runNativeToolCall_keeps hkept' (hclear.quiet (hu.1 rfl)) call step).bind (fun r v hkept'' hv => ?_)
        split
        · exact halt_keeps hkept'' (fun hfinal => hv.2 (congrArg some hfinal)) _
        · exact ih hkept'' hv.1

theorem nativeResponse_keeps (h : Kept E s₀ s) (clear : s.Clear) (hmode : E.mode = .nativeTool) (envelope : Document)
    (step : Nat) : Keeps E s₀ (nativeResponse E envelope step) s (FlowEnd E s₀) := by
  refine .lift h (fun toolCalls _ => .ite (fun _ => ?_) (fun hcalls => ?_))
  · refine .next (record_quietly _ _) h (fun _ t ht hkept => .pure hkept ⟨fun _ => clear.quiet ht, fun _ hlegacy => ?_⟩)
    rw [hmode] at hlegacy
    cases hlegacy
  · refine .lift h (fun _ _ => .lift h (fun _ _ => say_keeps h (fun _ => ?_) (fun t hkept hdeeds _ => ?_)))
    · simp [Message.isAnswer, hcalls]
    · exact runCalls_keeps hkept (by unfold Runtime.Clear; rw [hdeeds]; exact clear) step toolCalls

end

end Motte.Agent
