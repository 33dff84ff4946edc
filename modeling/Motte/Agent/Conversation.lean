import Motte.Agent.Turn

/-! A conversation with the agent, whatever it is asked and whatever it is answered.

Between two requests the session is settled: it keeps its budget, and when anything can
still be sent to it, no cancellation and no end of the time was seen. A turn that did not
end with an answer leaves it shut, and nothing opens it again. -/
namespace Motte.Agent
open Foundation Gate

section
variable {W : Type} {E : Setup W} {s₀ s : Runtime W}

/-! ### The steps of a turn -/

theorem parseDecision_str {content : Value} {decision : Value} (h : parseDecision E content = .ok (some decision)) :
    ∃ response, content = .str response := by
  cases content with
  | str response => exact ⟨response, rfl⟩
  | null | bool | int | float | arr | obj => cases h

theorem legacyResponse_keeps (h : Kept E s₀ s) (clear : s.Clear) (hmode : E.mode = .legacyJson) (envelope : Document)
    (step : Nat) : Keeps E s₀ (legacyResponse E envelope step) s (FlowEnd E s₀) := by
  have hlegacy {m : Message} : E.mode = .nativeTool → m.isAnswer = false := fun hnative => by
    rw [hmode] at hnative
    cases hnative
  refine .lift h (fun parsed hparsed => ?_)
  split
  · refine .next (record_quietly _ _) h (fun _ t ht hkept => say_keeps hkept hlegacy (fun u hkept' hu _ => ?_))
    refine say_keeps hkept' hlegacy (fun v hkept'' hv _ => .ite (fun _ => ?_) (fun _ => ?_))
    · exact halt_keeps hkept'' (fun hreason => by cases hreason) _
    · have hclear : v.Clear := by
        unfold Runtime.Clear
        rw [hv, hu]
        exact clear.quiet ht
      exact .pure hkept'' hclear
  · rename_i decision
    obtain ⟨response, hresponse⟩ := parseDecision_str hparsed
    refine say_keeps h hlegacy (fun t hkept hdeeds hmessages => .ite (fun hfinal => ?_) (fun _ => ?_))
    · refine .next (record_quietly _ _) hkept (fun _ u hu hkept' => .pure hkept' (Concluded.quiet ?_ hu))
      obtain ⟨ms, hms, -⟩ := h.history
      refine ⟨fun _ => by unfold Runtime.Clear; rw [hdeeds]; exact clear, fun _ _ => ⟨ms, response, decision, ?_, ?_, hfinal, rfl⟩⟩
      · rw [hmessages, hms, hresponse]
      · rw [← hresponse]
        exact hparsed
    · have hclear : t.Clear := by
        unfold Runtime.Clear
        rw [hdeeds]
        exact clear
      refine (cancelled_keeps hkept).bind (fun stopped u hkept' hu => .ite (fun _ => ?_) (fun hgo => ?_))
      · exact halt_keeps hkept' (fun hreason => by cases hreason) _
      · have hclear' := hclear.quiet (hu (by simpa using hgo))
        refine (turnDeadlineExpired_keeps hkept' step).bind (fun r v hkept'' hv => ?_)
        split
        · exact halt_keeps hkept'' (hv.2 _ rfl) _
        · refine (runLegacyTool_keeps hkept'' (hclear'.quiet (hv.1 rfl)) decision step).bind (fun r w hkept''' hw => ?_)
          split
          · exact halt_keeps hkept''' (fun hfinal => hw.2 (congrArg some hfinal)) _
          · refine .pure hkept''' ?_
            split
            · exact halt_end (fun hreason => by cases hreason) _
            · exact hw.1

theorem afterResponse_keeps (h : Kept E s₀ s) (clear : s.Clear) (envelope : Document) (step : Nat) :
    Keeps E s₀ (afterResponse E envelope step) s (FlowEnd E s₀) := by
  refine .next (recordUsage_quietly envelope) h (fun _ t ht hkept => ?_)
  refine (wallOrUsageStop_keeps hkept).bind (fun r u hkept' ⟨hu, hr⟩ => ?_)
  split
  · exact .next (record_quietly _ _) hkept' (fun _ _ _ hkept'' =>
      halt_keeps hkept'' (fun hfinal => hr (congrArg some hfinal)) _)
  · refine (cancelled_keeps hkept').bind (fun stopped v hkept'' hv => .ite (fun _ => ?_) (fun hgo => ?_))
    · exact halt_keeps hkept'' (fun hreason => by cases hreason) _
    · have hclear := ((clear.quiet ht).quiet hu).quiet (hv (by simpa using hgo))
      split
      · rename_i hmode
        exact nativeResponse_keeps hkept'' hclear hmode envelope step
      · rename_i hmode
        exact legacyResponse_keeps hkept'' hclear hmode envelope step

theorem allowedStep_keeps (h : Kept E s₀ s) (guard : Callable E s) (step : Nat) :
    Keeps E s₀ (allowedStep E step) s (FlowEnd E s₀) := by
  refine .next (record_quietly _ _) h (fun _ t ht hkept => ?_)
  refine (cancelled_keeps hkept).bind (fun stopped u hkept' hu => .ite (fun _ => ?_) (fun hgo => ?_))
  · exact halt_keeps hkept' (fun hreason => by cases hreason) _
  · have hguard := (guard.quiet ht).quiet (hu (by simpa using hgo))
    refine (callModel_keeps hkept' hguard step).bind (fun r v hkept'' hv => ?_)
    split
    · refine .read (halt_keeps hkept'' (fun hfinal => ?_) _)
      have hstop := hkept''.budgeted.stop
      cases hlast : v.lastCallStop with
      | none =>
        rw [hlast] at hfinal
        cases hfinal
      | some reason =>
        rw [hlast] at hfinal hstop
        exact hstop (congrArg some hfinal)
    · exact afterResponse_keeps hkept'' (hv rfl) _ step

theorem Answered.after {t u : Runtime W} {finalOutput : Value} (h : Kept E s t) (hanswered : Answered E t u finalOutput) :
    Answered E s u finalOutput := by
  obtain ⟨ms, hms, -⟩ := h.history
  obtain ⟨ms', response, decision, hmessages, hdecision⟩ := hanswered
  exact ⟨ms ++ ms', response, decision, by rw [hmessages, hms, List.append_assoc s.session.messages], hdecision⟩

theorem Concluded.after {t u : Runtime W} {reason : Reason} {finalOutput : Value} (h : Kept E s t)
    (hconcluded : Concluded E t u reason finalOutput) : Concluded E s u reason finalOutput :=
  ⟨hconcluded.clear, fun hreason hmode => (hconcluded.answered hreason hmode).after h⟩

theorem FlowEnd.after {t u : Runtime W} {flow : Flow} (h : Kept E s t) (hend : FlowEnd E t flow u) :
    FlowEnd E s flow u := by
  cases flow with
  | again => exact hend
  | stop => exact Concluded.after h hend

/-- One round of the loop: it is counted, and a round that goes on was one that the budget allows. -/
theorem turnStep_ends (h : Budgeted E s) (clear : s.Clear) :
    (turnStep E).wp s
      (fun flow t => Kept E s t ∧ FlowEnd E s flow t ∧
        (flow = .again → s.session.steps < t.session.steps ∧ s.session.steps < E.limits.maxSteps))
      (fun _ t => Kept E s t) := by
  have hstep : Kept E s (s.setSession { s.session with steps := s.session.steps + 1 }) :=
    (Kept.refl h).still h.step rfl rfl (Nat.le_succ _) rfl
  have hround : Keeps E (s.setSession { s.session with steps := s.session.steps + 1 }) (turnStep E) s
      (fun flow t => FlowEnd E (s.setSession { s.session with steps := s.session.steps + 1 }) flow t ∧
        (flow = .again → s.session.steps < E.limits.maxSteps)) := by
    refine .change (.read ((stepAllowed_keeps (Kept.refl h.step) _).bind (fun r t hkept ⟨ht, hr, hallowed⟩ => ?_)))
    split
    · exact .pure hkept ⟨halt_end (fun hfinal => hr (congrArg some hfinal)) _, fun hagain => by cases hagain⟩
    · have guard : Callable E (s.setSession { s.session with steps := s.session.steps + 1 }) :=
        ⟨clear, Nat.lt_succ_of_le h.counted, hallowed rfl⟩
      exact (allowedStep_keeps hkept (guard.quiet ht) _).mono (fun _ _ _ hend => ⟨hend, fun _ => hallowed rfl⟩)
  exact Op.wp_mono hround
    (fun flow t ⟨hkept, hend, hagain⟩ => ⟨hstep.trans hkept, hend.after hstep, fun hflow => ⟨hkept.steps, hagain hflow⟩⟩)
    (fun _ _ hkept => hstep.trans hkept)

/-! ### A turn -/

/-- The loop comes to an end in the rounds that the budget leaves. -/
theorem turnLoop_ends (fuel : Nat) (hfuel : E.limits.maxSteps - s.session.steps < fuel) (h : Budgeted E s)
    (clear : s.Clear) :
    (turnLoop E fuel).wp s
      (fun r t => Kept E s t ∧
        ∃ reason detail finalOutput, r = some (reason, detail, finalOutput) ∧ Concluded E s t reason finalOutput)
      (fun _ t => Kept E s t) := by
  induction fuel generalizing s with
  | zero => exact absurd hfuel (Nat.not_lt_zero _)
  | succ fuel ih =>
    refine Op.wp_bind.2 (Op.wp_mono (turnStep_ends h clear) (fun flow t ⟨hkept, hend, hagain⟩ => ?_) (fun _ _ ht => ht))
    cases flow with
    | stop reason detail finalOutput => exact ⟨hkept, reason, detail, finalOutput, rfl, hend⟩
    | again =>
      obtain ⟨hmore, hless⟩ := hagain rfl
      have hleft : E.limits.maxSteps - t.session.steps < fuel := by omega
      refine Op.wp_mono (ih hleft hkept.budgeted hend) ?_ (fun _ _ hu => hkept.trans hu)
      rintro r u ⟨hu, reason, detail, finalOutput, rfl, hconcluded⟩
      exact ⟨hkept.trans hu, reason, detail, finalOutput, rfl, hconcluded.after hkept⟩

/-- Nothing can be sent after an end that is no answer. -/
theorem recordTermination_shut {session : BuiltinSession} {reason : Reason} (hreason : reason ≠ .finalAnswer)
    (detail : Option String) (finalOutput : Value) : (session.recordTermination reason detail finalOutput).Shut := by
  by_cases hclosed : session.closed = true
  · exact .inr (.inl hclosed)
  · refine .inr (.inr ?_)
    simp [BuiltinSession.recordTermination, hclosed, hreason]

theorem markFailed_shut (session : BuiltinSession) (e : Fault) : (session.markFailed e).Shut := by
  by_cases hclosed : session.closed = true
  · exact .inr (.inl hclosed)
  · refine .inr (.inr ?_)
    simp [BuiltinSession.markFailed, hclosed]

/-- What a turn leaves that was begun with this prompt. -/
structure Turned (E : Setup W) (prompt : String) (s : Runtime W) (o : TurnOutcome) (t : Runtime W) : Prop where
  messages : o.messages = t.session.messages
  clear : o.terminationReason = .finalAnswer → t.Clear
  shut : o.terminationReason ≠ .finalAnswer → t.session.Shut
  /-- what was said is kept, and the prompt follows it -/
  asked : ∃ ms, o.messages = s.session.messages ++ .user prompt :: ms ∧
    (E.mode = .nativeTool → ∀ m ∈ ms, m.isAnswer = false)
  answered : o.terminationReason = .finalAnswer → E.mode = .legacyJson →
    ∃ ms response decision,
      o.messages = s.session.messages ++ .user prompt :: (ms ++ [.assistant (E.str (.str response))]) ∧
      parseDecision E (.str response) = .ok (some decision) ∧ isFinal decision = true ∧
      o.finalOutput = decision.member "answer"

theorem runLoop_ends (prompt : String) (h : Budgeted E s) (clear : s.Clear) :
    (runLoop E prompt).wp s (fun r t => Kept E s t ∧ ∃ o, r = some o ∧ Turned E prompt s o t)
      (fun _ t => Kept E s t) := by
  refine Op.wp_bind.2 (Op.wp_gets.2 (Op.wp_bind.2 (Op.wp_gets.2 (Op.wp_bind.2 (Op.wp_modify.2 ?_)))))
  refine Op.wp_bind.2 (Op.wp_modify.2 ?_)
  have hturns : Kept E s (s.setSession { s.session with turns := s.session.turns + 1 }) :=
    (Kept.refl h).quiet ⟨rfl, rfl, rfl, rfl, rfl, rfl, rfl⟩
  have hsaid := hturns.say (m := .user prompt) (fun _ => rfl)
  refine Op.wp_bind.2 (Op.wp_mono (turnLoop_ends _ (Nat.lt_succ_self _) hsaid.budgeted clear) ?_
    (fun _ t ht => hsaid.trans ht))
  rintro r t ⟨hkept, reason, detail, finalOutput, rfl, hconcluded⟩
  refine Op.wp_bind.2 (Op.wp_gets.2 ?_)
  refine Op.wp_bind.2 (Op.wp_mono (record_quietly _ _ t) (fun _ u hu => ?_) (fun _ u hu => hsaid.trans (hkept.quiet hu)))
  refine poll_quietly.next (fun _ v hv => ?_) (fun _ v hv => hsaid.trans ((hkept.quiet hu).quiet hv))
  refine Op.wp_bind.2 (Op.wp_modify.2 (Op.wp_bind.2 (Op.wp_gets.2 (Op.wp_pure.2 ?_))))
  have hend : Quiet v (v.setSession (v.session.recordTermination reason detail finalOutput)) :=
    ⟨rfl, rfl, rfl, rfl, rfl, rfl, rfl⟩
  have hquiet := (hu.trans hv).trans hend
  refine ⟨hsaid.trans (hkept.quiet hquiet), _, rfl, ?_⟩
  exact {
    messages := rfl
    clear := fun hreason => (hconcluded.clear hreason).quiet hquiet
    shut := fun hreason => recordTermination_shut hreason _ _
    asked := by
      obtain ⟨ms, hms, hanswer⟩ := hkept.history
      refine ⟨ms, ?_, hanswer⟩
      show (v.setSession _).session.messages = _
      rw [hquiet.messages, hms]
      exact List.append_assoc _ _ _
    answered := by
      intro hreason hmode
      obtain ⟨ms, response, decision, hms, hdecision⟩ := hconcluded.answered hreason hmode
      refine ⟨ms, response, decision, ?_, hdecision⟩
      show (v.setSession _).session.messages = _
      rw [hquiet.messages, hms, List.append_assoc _ ms]
      exact List.append_assoc _ _ _ }

/-! ### A request -/

/-- What holds of the agent between two requests. -/
structure Settled (E : Setup W) (s : Runtime W) : Prop where
  budgeted : Budgeted E s
  begun : s.session.begun = true
  clear : ¬s.session.Shut → s.Clear

namespace Reply

/-- A turn that did not end with an answer. -/
def Failed : Reply → Prop
  | .turn o => o.terminationReason ≠ .finalAnswer
  | .raised _ => True
  | _ => False

def Refused : Reply → Prop
  | .refused _ => True
  | _ => False

end Reply

/-- What one request does. -/
structure Served (E : Setup W) (request : Request) (s : Runtime W) (reply : Reply) (t : Runtime W) : Prop where
  kept : Kept E s t
  settled : Settled E t
  finished : reply ≠ .unfinished
  failed : reply.Failed → t.session.Shut
  /-- nothing opens a session that is shut -/
  shut : s.session.Shut → t.session.Shut
  refused : s.session.Shut → ∀ prompt deadline, request = .send prompt deadline → reply.Refused
  turned : ∀ o, reply = .turn o → ∃ prompt deadline, request = .send prompt deadline ∧ Turned E prompt s o t

theorem demand_shut (s : Runtime W) : ∀ d, (s.demand d).session.Shut
  | .interrupt => .inl rfl
  | .close => by
    show s.session.close.Shut
    unfold BuiltinSession.close
    split
    · exact .inr (.inl ‹_›)
    · exact .inr (.inl rfl)

theorem send_served (h : Settled E s) (prompt : String) (deadline : Option ℚ) :
    (send E prompt deadline).wp s (Served E (.send prompt deadline) s) (fun _ _ => False) := by
  refine Op.wp_bind.2 (Op.wp_gets.2 ?_)
  split
  · -- nothing happens
    refine Op.wp_pure.2 ⟨.refl h.budgeted, h, fun hend => (by cases hend), False.elim, id, fun _ _ _ _ => trivial,
      fun _ hturn => by cases hturn⟩
  · rename_i haccepted
    have hopen : ¬s.session.Shut := fun hshut => (BuiltinSession.refused_iff h.begun).2 hshut haccepted
    have hdeadline : Kept E s { s with turnDeadline := deadline } :=
      (Kept.refl h.budgeted).quiet ⟨rfl, rfl, rfl, rfl, rfl, rfl, rfl⟩
    refine Op.wp_bind.2 (Op.wp_gets.2 (Op.wp_bind.2 (Op.wp_modify.2 (Op.wp_bind.2 (Op.wp_result_iff.2 ?_)))))
    refine Op.wp_mono (runLoop_ends (s := { s with turnDeadline := deadline }) prompt hdeadline.budgeted (h.clear hopen))
      ?_ (fun e t hkept => ?_)
    · rintro r t ⟨hkept, o, rfl, hturned⟩
      have hrest : Quiet t { t with turnDeadline := s.turnDeadline } := ⟨rfl, rfl, rfl, rfl, rfl, rfl, rfl⟩
      have hall := (hdeadline.trans hkept).quiet hrest
      refine Op.wp_bind.2 (Op.wp_modify.2 (Op.wp_pure.2 ?_))
      exact {
        kept := hall
        settled := {
          budgeted := hall.budgeted
          begun := hall.begun.trans h.begun
          clear := fun hnot => by
            by_cases hreason : o.terminationReason = .finalAnswer
            · exact hturned.clear hreason
            · exact absurd (hturned.shut hreason) hnot }
        finished := fun hend => by cases hend
        failed := fun hfailed => hturned.shut hfailed
        shut := fun hshut => absurd hshut hopen
        refused := fun hshut => absurd hshut hopen
        turned := fun o' ho' => by
          cases ho'
          exact ⟨prompt, deadline, rfl, hturned.messages, hturned.clear, hturned.shut, hturned.asked, hturned.answered⟩ }
    · have hfailed : Quiet t { t with session := t.session.markFailed e, turnDeadline := s.turnDeadline } :=
        ⟨rfl, rfl, rfl, rfl, rfl, rfl, rfl⟩
      have hall := (hdeadline.trans hkept).quiet hfailed
      have hshut := markFailed_shut t.session e
      refine Op.wp_bind.2 (Op.wp_modify.2 (Op.wp_bind.2 (Op.wp_modify.2 (Op.wp_pure.2 ?_))))
      exact {
        kept := hall
        settled := ⟨hall.budgeted, hall.begun.trans h.begun, fun hnot => absurd hshut hnot⟩
        finished := fun hend => by cases hend
        failed := fun _ => hshut
        shut := fun _ => hshut
        refused := fun hshut' => absurd hshut' hopen
        turned := fun _ hturn => by cases hturn }

/-- One request, whatever it is. -/
theorem serve_served (h : Settled E s) (request : Request) :
    Served E request s (serve E request s).1 (serve E request s).2 := by
  cases request with
  | demand d =>
    have hkept : Kept E s (s.demand d) := (Kept.refl h.budgeted).quiet (.demand s d)
    exact {
      kept := hkept
      settled := ⟨hkept.budgeted, hkept.begun.trans h.begun, fun hnot => absurd (demand_shut s d) hnot⟩
      finished := fun hend => by cases hend
      failed := False.elim
      shut := fun _ => demand_shut s d
      refused := fun _ _ _ hsend => by cases hsend
      turned := fun _ hturn => by cases hturn }
  | send prompt deadline =>
    have hsend := send_served h prompt deadline
    simp only [serve]
    rcases hresult : send E prompt deadline s with ⟨e | reply, t⟩
    · exact ((Op.wp_of_error hresult).1 hsend).elim
    · exact (Op.wp_of_ok hresult).1 hsend

/-! ### A conversation -/

theorem settled_fresh (w : W) : Settled E { world := w } where
  budgeted := ⟨le_rfl, Nat.zero_le _, le_rfl, fun _ _ => Nat.zero_le _, .nil, fun _ hid => (by cases hid), .nil,
    fun hstop => (by cases hstop)⟩
  begun := rfl
  clear := fun _ hmem => by cases hmem

theorem converse_settled (requests : List Request) (h : Settled E s) : Settled E (converse E requests s).2 := by
  induction requests generalizing s with
  | nil => exact h
  | cons request rest ih => exact ih (serve_served h request).settled

theorem converse_finished (requests : List Request) (h : Settled E s) :
    .unfinished ∉ (converse E requests s).1 := by
  induction requests generalizing s with
  | nil => exact List.not_mem_nil
  | cons request rest ih =>
    have hserved := serve_served h request
    intro hmem
    rcases List.mem_cons.1 hmem with hhead | htail
    · exact hserved.finished hhead.symm
    · exact ih hserved.settled htail

/-- A session that is shut refuses all that is sent to it. -/
theorem converse_refused (requests : List Request) (h : Settled E s) (hshut : s.session.Shut) :
    ∀ x ∈ requests.zip (converse E requests s).1, ∀ prompt deadline, x.1 = .send prompt deadline → x.2.Refused := by
  induction requests generalizing s with
  | nil =>
    intro x hx
    cases hx
  | cons request rest ih =>
    have hserved := serve_served h request
    intro x hx
    rcases List.mem_cons.1 hx with rfl | hx
    · exact hserved.refused hshut
    · exact ih hserved.settled (hserved.shut hshut) x hx

/-- After a turn without an answer every later prompt is refused. -/
theorem converse_failed (requests : List Request) (h : Settled E s) :
    (requests.zip (converse E requests s).1).Pairwise (fun earlier later =>
      earlier.2.Failed → ∀ prompt deadline, later.1 = .send prompt deadline → later.2.Refused) := by
  induction requests generalizing s with
  | nil => exact .nil
  | cons request rest ih =>
    have hserved := serve_served h request
    refine .cons (fun later hlater hfailed => ?_) (ih hserved.settled)
    exact converse_refused rest hserved.settled (hserved.failed hfailed) later hlater

/-- The budget of a session holds over the whole conversation, whatever the model, the tools, the clock and others do. -/
theorem conversation_within_budget (E : Setup W) (w : W) (requests : List Request) :
    let result := converse E requests { world := w }
    calls result.2.deeds ≤ E.limits.maxSteps ∧
      (∀ n, E.limits.maxToolCalls = some n → tools result.2.deeds ≤ n) ∧
      (nativeIds result.2.deeds).Nodup ∧
      InOrder result.2.deeds ∧
      .unfinished ∉ result.1 ∧
      (requests.zip result.1).Pairwise (fun earlier later =>
        earlier.2.Failed → ∀ prompt deadline, later.1 = .send prompt deadline → later.2.Refused) := by
  have hsettled := settled_fresh (E := E) w
  have hend := (converse_settled requests hsettled).budgeted
  exact ⟨hend.calls, fun n hn => hend.made.trans (hend.tools n hn), hend.once, hend.order,
    converse_finished requests hsettled, converse_failed requests hsettled⟩

end

end Motte.Agent
