import Motte.Agent.Runtime

/-! What most parts of the agent leave as it is.

While a port is called others may interrupt or close the session, so its state is not
what it was. What was said, done and counted is. -/
namespace Motte.Agent
open Foundation Gate

section
variable {W : Type} {E : Setup W}

/-- Nothing is said, done or counted between these states. -/
structure Quiet (s t : Runtime W) : Prop where
  deeds : t.deeds = s.deeds
  messages : t.session.messages = s.session.messages
  steps : t.session.steps = s.session.steps
  ids : t.session.executedCallIds = s.session.executedCallIds
  made : t.spent.toolCallsMade = s.spent.toolCallsMade
  begun : t.session.begun = s.session.begun
  stop : t.lastCallStop = s.lastCallStop

namespace Quiet
variable {s t u : Runtime W}

theorem refl (s : Runtime W) : Quiet s s := ⟨rfl, rfl, rfl, rfl, rfl, rfl, rfl⟩

theorem trans (h : Quiet s t) (h' : Quiet t u) : Quiet s u where
  deeds := h'.deeds.trans h.deeds
  messages := h'.messages.trans h.messages
  steps := h'.steps.trans h.steps
  ids := h'.ids.trans h.ids
  made := h'.made.trans h.made
  begun := h'.begun.trans h.begun
  stop := h'.stop.trans h.stop

theorem world (s : Runtime W) (w : W) : Quiet s { s with world := w } := ⟨rfl, rfl, rfl, rfl, rfl, rfl, rfl⟩

theorem recordEvent (s : Runtime W) (event : AgentEvent) : Quiet s (s.setSession (s.session.recordEvent event)) :=
  ⟨rfl, rfl, rfl, rfl, rfl, rfl, rfl⟩

theorem cancel (s : Runtime W) : Quiet s (s.demand .interrupt) := ⟨rfl, rfl, rfl, rfl, rfl, rfl, rfl⟩

theorem close (s : Runtime W) : Quiet s (s.demand .close) := by
  have hclose : s.session.close.messages = s.session.messages ∧ s.session.close.steps = s.session.steps ∧
      s.session.close.executedCallIds = s.session.executedCallIds ∧ s.session.close.begun = s.session.begun := by
    unfold BuiltinSession.close
    split <;> exact ⟨rfl, rfl, rfl, rfl⟩
  obtain ⟨hmessages, hsteps, hids, hbegun⟩ := hclose
  exact ⟨rfl, hmessages, hsteps, hids, rfl, hbegun, rfl⟩

theorem demand (s : Runtime W) : ∀ d, Quiet s (s.demand d)
  | .interrupt => cancel s
  | .close => close s

theorem demands (s : Runtime W) (ds : List Demand) : Quiet s (ds.foldl Runtime.demand s) := by
  induction ds generalizing s with
  | nil => exact refl s
  | cons d rest ih => exact (demand s d).trans (ih _)

end Quiet

/-! ### Quiet parts -/

/-- However it ends, nothing is said, done or counted. -/
def Quietly {α : Type} (x : Task W α) : Prop := ∀ s, x.wp s (fun _ t => Quiet s t) (fun _ t => Quiet s t)

namespace Quietly
variable {α β : Type} {x : Task W α} {f : α → Task W β} {s : Runtime W}

theorem pure (a : α) : Quietly (Pure.pure a : Task W α) := Quiet.refl

theorem raise (e : Fault) : Quietly (Op.raise e : Task W α) := Quiet.refl

theorem gets (g : Runtime W → α) : Quietly (Op.gets g) := Quiet.refl

theorem lift (y : Except Fault α) : Quietly (Op.lift y : Task W α) :=
  fun s => Op.wp_lift.2 ⟨fun _ _ => .refl s, fun _ _ => .refl s⟩

theorem modify {g : Runtime W → Runtime W} (hg : ∀ s, Quiet s (g s)) : Quietly (Op.modify g) := hg

/-- Go on after a quiet part. -/
theorem next (hx : Quietly x) {ok : β → Runtime W → Prop} {err : Fault → Runtime W → Prop}
    (hf : ∀ a t, Quiet s t → (f a).wp t ok err) (herr : ∀ e t, Quiet s t → err e t) : (x >>= f).wp s ok err :=
  Op.wp_bind.2 (Op.wp_mono (hx s) hf herr)

theorem bind (hx : Quietly x) (hf : ∀ a, Quietly (f a)) : Quietly (x >>= f) := fun s =>
  hx.next
    (fun a t ht => Op.wp_mono (hf a t) (fun _ _ hu => ht.trans hu) (fun _ _ hu => ht.trans hu))
    (fun _ _ ht => ht)

theorem result (hx : Quietly x) : Quietly (Op.result x) := fun s =>
  Op.wp_result_iff.2 (hx s)

theorem ite {p : Prop} [Decidable p] {y : Task W α} (hx : Quietly x) (hy : Quietly y) : Quietly (if p then x else y) := by
  split
  · exact hx
  · exact hy

end Quietly

theorem poll_quietly : Quietly (poll E) :=
  .modify (fun s => (Quiet.world s _).trans (.demands _ _))

theorem onWorld_quietly {α : Type} (x : Op W Fault α) : Quietly (onWorld E x) := by
  refine .bind (.result (fun _ => Op.wp_zoom.2 (Op.wp_always (fun _ _ => .world _ _) fun _ _ => .world _ _)))
    (fun answer => .bind poll_quietly (fun _ => ?_))
  cases answer with
  | ok a => exact .pure a
  | error e => exact .raise e

theorem now_quietly : Quietly (now E) := fun s => Quiet.world s _

theorem wallElapsed_quietly : Quietly (wallElapsed E) := fun s => Quiet.world s _

theorem record_quietly (type : String) (payload : List (String × Value)) : Quietly (record E type payload) := by
  refine .bind (.modify (fun s => .recordEvent s _)) (fun _ => ?_)
  split
  · exact .pure ()
  · exact onWorld_quietly _

theorem spend_quietly {f : Spent → Spent} (hf : ∀ p, (f p).toolCallsMade = p.toolCallsMade) :
    Quietly (spend f : Task W Unit) :=
  .modify (fun s => ⟨rfl, rfl, rfl, rfl, hf s.spent, rfl, rfl⟩)

theorem askCancel_quietly : Quietly (askCancel E) := by
  unfold askCancel
  split
  · exact .pure false
  · refine .bind (.result (onWorld_quietly _)) (fun answer => ?_)
    split
    · exact .pure _
    · exact .raise _
    · exact .pure _

theorem wallOver_quietly : Quietly (wallOver E) := by
  unfold wallOver
  split
  · exact .pure false
  · exact .bind wallElapsed_quietly (fun _ => .pure _)

theorem wallOrUsageStop_quietly : Quietly (wallOrUsageStop E) :=
  .bind wallOver_quietly (fun _ => .ite (.pure _) (.gets _))

theorem effectiveCallDeadline_quietly : Quietly (effectiveCallDeadline E) :=
  .bind now_quietly (fun _ => .bind (.gets _) (fun _ => .pure _))

theorem turnOver_quietly : Quietly (turnOver E) := by
  refine .bind (.gets _) (fun deadline => ?_)
  split
  · exact .pure false
  · exact .bind now_quietly (fun _ => .pure _)

theorem addTokens_made {spent counted : Spent} {usage : Value} (h : spent.addTokens usage = .ok counted) :
    counted.toolCallsMade = spent.toolCallsMade := by
  unfold Spent.addTokens at h
  split at h
  · cases h
    rfl
  · split at h
    · cases h
    · cases h
      rfl
  · cases h

theorem addCost_made {spent priced : Spent} {cost : Value} (h : spent.addCost cost = .ok priced) :
    priced.toolCallsMade = spent.toolCallsMade := by
  unfold Spent.addCost at h
  split at h
  · cases h
    rfl
  · split at h
    · cases h
    · split at h
      · cases h
      · cases h
        rfl

theorem recordUsage_quietly (envelope : Document) : Quietly (recordUsage envelope : Task W Unit) := by
  intro s
  refine Op.wp_bind.2 (Op.wp_gets.2 (Op.wp_bind.2 (Op.wp_lift.2 ⟨fun counted hcounted => ?_, fun _ _ => .refl s⟩)))
  have hmade := addTokens_made hcounted
  refine Op.wp_bind.2 (Op.wp_modify.2 (Op.wp_bind.2 (Op.wp_lift.2 ⟨fun priced hpriced => ?_, fun _ _ => ?_⟩)))
  · exact Op.wp_modify.2 ⟨rfl, rfl, rfl, rfl, (addCost_made hpriced).trans hmade, rfl, rfl⟩
  · exact ⟨rfl, rfl, rfl, rfl, hmade, rfl, rfl⟩

end

end Motte.Agent
