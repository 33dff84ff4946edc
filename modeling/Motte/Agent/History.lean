import Motte.Agent.Conversation

/-! What the model is told of the turns before.

In legacy mode the decision that ends a turn is written into the history. In native mode
a turn ends with a response that is no part of it. -/
namespace Motte.Agent
open Foundation Gate

section
variable {W : Type} {E : Setup W} {s : Runtime W}

theorem converse_kept (requests : List Request) (h : Settled E s) : Kept E s (converse E requests s).2 := by
  induction requests generalizing s with
  | nil => exact .refl h.budgeted
  | cons request rest ih =>
    have hserved := serve_served h request
    exact hserved.kept.trans (ih hserved.settled)

/-- What a turn with an answer adds to the history: the prompt, and in legacy mode the decision that carries the answer
at the end, while in native mode no answer. Whatever is asked later, the model is told all of it first. -/
theorem answered_turn_remembered (E : Setup W) {w : W} {earlier later : List Request} {prompt : String}
    {deadline : Option ℚ} {o : TurnOutcome} {s t u : Runtime W} (before : (converse E earlier { world := w }).2 = s)
    (turn : serve E (.send prompt deadline) s = (.turn o, t)) (after : (converse E later t).2 = u)
    (final : o.terminationReason = .finalAnswer) :
    o.messages = t.session.messages ∧
      (E.mode = .legacyJson → ∃ ms response decision,
        o.messages = s.session.messages ++ .user prompt :: (ms ++ [.assistant (E.str (.str response))]) ∧
        parseDecision E (.str response) = .ok (some decision) ∧ isFinal decision = true ∧
        o.finalOutput = decision.member "answer") ∧
      (E.mode = .nativeTool → ∃ ms,
        o.messages = s.session.messages ++ .user prompt :: ms ∧ ∀ m ∈ ms, m.isAnswer = false) ∧
      o.messages <+: u.session.messages ∧
      ∃ ds, u.deeds = t.deeds ++ ds ∧ ∀ m, .called m ∈ ds → o.messages <+: m := by
  have hsettled : Settled E s := before ▸ converse_settled earlier (settled_fresh w)
  have hserved := serve_served hsettled (.send prompt deadline)
  rw [turn] at hserved
  obtain ⟨prompt', deadline', hsend, hturned⟩ := hserved.turned o rfl
  cases hsend
  have hlater : Kept E t u := after ▸ converse_kept later hserved.settled
  refine ⟨hturned.messages, hturned.answered final, fun hmode => ?_, ?_, ?_⟩
  · obtain ⟨ms, hms, hanswer⟩ := hturned.asked
    exact ⟨ms, hms, hanswer hmode⟩
  · obtain ⟨ms, hms, -⟩ := hlater.history
    rw [hturned.messages, hms]
    exact List.prefix_append _ _
  · rw [hturned.messages]
    exact hlater.told

end

/-! ### Two modes -/

/-- Ports that nothing is asked of but the model, which says the same each time. -/
def echoPorts (content : String) : Ports Unit where
  complete _ := pure (some (Table.set {} "content" (.str content)))
  completeWithin _ _ := pure none
  tool _ _ := pure .null
  now w := (0, w)
  wallElapsed w := (0, w)
  shouldCancel := none
  eventSink := none
  demands w := ([], w)

def echo (mode : Mode) (content : String) (decision : Value) : Setup Unit where
  ports := echoPorts content
  str
    | .str s => s
    | _ => ""
  loads s := if s = content then .ok decision else .error "Expecting value"
  dumps _ := ""
  time _ := .null
  mode := mode

/-- In native mode the second turn is told of the first prompt, not of its answer. -/
theorem native_answer_forgotten :
    let first := serve (echo .nativeTool "hi" .null) (.send "one" none) { world := () }
    let second := serve (echo .nativeTool "hi" .null) (.send "two" none) first.2
    (∃ o, first.1 = .turn o ∧ o.terminationReason = .finalAnswer ∧ o.finalOutput = .str "hi" ∧
      ∀ m ∈ o.messages, m.role ≠ .assistant) ∧
    second.2.deeds = [.called [.user "one"], .called [.user "one", .user "two"]] := by
  refine ⟨⟨_, rfl, rfl, rfl, ?_⟩, rfl⟩
  decide

def legacyEcho : Setup Unit := echo .legacyJson "bye" (.obj [("action", .str "final"), ("answer", .int 3)])

/-- In legacy mode it is told of both. -/
theorem legacy_answer_remembered :
    ∃ o t, serve legacyEcho (.send "two" none) (converse legacyEcho [.send "one" none] { world := () }).2 = (.turn o, t) ∧
      o.messages = [.user "one", .assistant "bye", .user "two", .assistant "bye"] ∧
      o.messages <+: (converse legacyEcho [.send "three" none] t).2.session.messages := by
  have hturn : ∃ o t,
      serve legacyEcho (.send "two" none) (converse legacyEcho [.send "one" none] { world := () }).2 = (.turn o, t) ∧
      o.terminationReason = .finalAnswer ∧
      o.messages = [.user "one", .assistant "bye", .user "two", .assistant "bye"] := ⟨_, _, rfl, rfl, rfl⟩
  obtain ⟨o, t, hserve, hreason, hmessages⟩ := hturn
  exact ⟨o, t, hserve, hmessages, (answered_turn_remembered legacyEcho rfl hserve rfl hreason).2.2.2.1⟩

end Motte.Agent
