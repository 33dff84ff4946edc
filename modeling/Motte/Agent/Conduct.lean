import Motte.Agent.Quiet

/-! What the agent keeps to while it works.

A model call is counted by the step it is made in, and a tool by the budget before it is
run (`Budgeted`). Each thing that the agent does is said once, with the guard that the
code has passed when it does it (`Kept`). -/
namespace Motte.Agent
open Foundation Gate

/-! ### What was done -/

namespace Deed

def isCall : Deed → Bool
  | .called _ => true
  | _ => false

def isTool : Deed → Bool
  | .executed _ _ => true
  | _ => false

/-- The id of a native call that was executed. -/
def callId : Deed → Option String
  | .executed callId _ => callId
  | _ => none

end Deed

def calls (ds : List Deed) : Nat := ds.countP Deed.isCall

def tools (ds : List Deed) : Nat := ds.countP Deed.isTool

def nativeIds (ds : List Deed) : List String := ds.filterMap Deed.callId

/-- No tool is begun after the end was seen. -/
def InOrder (ds : List Deed) : Prop := ds.Pairwise (fun earlier later => earlier = .observed → later.isTool = false)

section
variable {W : Type} {E : Setup W}

/-- Neither a cancellation nor the end of the time was seen. -/
def Runtime.Clear (s : Runtime W) : Prop := .observed ∉ s.deeds

/-- The budget is kept, and no call is executed again. -/
structure Budgeted (E : Setup W) (s : Runtime W) : Prop where
  counted : calls s.deeds ≤ s.session.steps
  calls : calls s.deeds ≤ E.limits.maxSteps
  made : tools s.deeds ≤ s.spent.toolCallsMade
  tools : ∀ n, E.limits.maxToolCalls = some n → s.spent.toolCallsMade ≤ n
  once : (nativeIds s.deeds).Nodup
  known : ∀ id ∈ nativeIds s.deeds, id ∈ s.session.executedCallIds
  order : InOrder s.deeds
  stop : s.lastCallStop ≠ some .finalAnswer

/-- From `s₀` on the budget was kept, and what was said before was told to the model. -/
structure Kept (E : Setup W) (s₀ t : Runtime W) : Prop where
  budgeted : Budgeted E t
  /-- in native mode no answer is written down -/
  history : ∃ ms, t.session.messages = s₀.session.messages ++ ms ∧
    (E.mode = .nativeTool → ∀ m ∈ ms, m.isAnswer = false)
  told : ∃ ds, t.deeds = s₀.deeds ++ ds ∧ ∀ m, .called m ∈ ds → s₀.session.messages <+: m
  steps : s₀.session.steps ≤ t.session.steps
  begun : t.session.begun = s₀.session.begun

theorem Runtime.Clear.quiet {s t : Runtime W} (h : s.Clear) (hq : Quiet s t) : t.Clear := by
  unfold Runtime.Clear
  rw [hq.deeds]
  exact h

/-- A tool may be run while no end was seen. -/
theorem Runtime.Clear.order {s : Runtime W} (h : s.Clear) (d : Deed) (ordered : InOrder s.deeds) :
    InOrder (s.deeds ++ [d]) := by
  refine List.pairwise_append.2 ⟨ordered, List.pairwise_singleton _ _, fun earlier hearlier _ _ hseen => ?_⟩
  rw [hseen] at hearlier
  exact absurd hearlier h

/-- What is no tool may be done at any time. -/
theorem InOrder.append {ds : List Deed} (h : InOrder ds) {d : Deed} (hd : d.isTool = false) : InOrder (ds ++ [d]) := by
  refine List.pairwise_append.2 ⟨h, List.pairwise_singleton _ _, fun _ _ later hlater _ => ?_⟩
  rw [List.mem_singleton.1 hlater]
  exact hd

@[simp] theorem calls_append (ds : List Deed) (d : Deed) : calls (ds ++ [d]) = calls ds + d.isCall.toNat := by
  cases d <;> simp [calls, Deed.isCall]

@[simp] theorem tools_append (ds : List Deed) (d : Deed) : tools (ds ++ [d]) = tools ds + d.isTool.toNat := by
  cases d <;> simp [tools, Deed.isTool]

@[simp] theorem nativeIds_append (ds : List Deed) (d : Deed) : nativeIds (ds ++ [d]) = nativeIds ds ++ d.callId.toList := by
  unfold nativeIds
  rw [List.filterMap_append]
  cases h : d.callId <;> simp [h]

/-! ### Each thing that the agent does -/

namespace Budgeted
variable {s t : Runtime W}

theorem quiet (h : Budgeted E s) (hq : Quiet s t) : Budgeted E t where
  counted := by rw [hq.deeds, hq.steps]; exact h.counted
  calls := by rw [hq.deeds]; exact h.calls
  made := by rw [hq.deeds, hq.made]; exact h.made
  tools := by rw [hq.made]; exact h.tools
  once := by rw [hq.deeds]; exact h.once
  known := by rw [hq.deeds, hq.ids]; exact h.known
  order := by rw [hq.deeds]; exact h.order
  stop := by rw [hq.stop]; exact h.stop

/-- Something that is neither a call nor a tool. -/
theorem observe (h : Budgeted E s) : Budgeted E { s with deeds := s.deeds ++ [.observed] } := {
  h with
  counted := by simpa [Deed.isCall] using h.counted
  calls := by simpa [Deed.isCall] using h.calls
  made := by simpa [Deed.isTool] using h.made
  once := by simpa [Deed.callId] using h.once
  known := by simpa [Deed.callId] using h.known
  order := h.order.append rfl }

theorem call (h : Budgeted E s) (m : List Message) (hcounted : Agent.calls s.deeds < s.session.steps)
    (hsteps : s.session.steps ≤ E.limits.maxSteps) : Budgeted E { s with deeds := s.deeds ++ [.called m] } := {
  h with
  counted := by simpa [Deed.isCall, Nat.add_one_le_iff] using hcounted
  calls := by
    have hmax := hcounted.trans_le hsteps
    simpa [Deed.isCall, Nat.add_one_le_iff] using hmax
  made := by simpa [Deed.isTool] using h.made
  once := by simpa [Deed.callId] using h.once
  known := by simpa [Deed.callId] using h.known
  order := h.order.append rfl }

theorem execute (h : Budgeted E s) (clear : s.Clear) (callId : Option String) (name : String)
    (hmade : Agent.tools s.deeds < s.spent.toolCallsMade)
    (hid : ∀ id ∈ callId, id ∈ s.session.executedCallIds ∧ id ∉ nativeIds s.deeds) :
    Budgeted E { s with deeds := s.deeds ++ [.executed callId name] } := {
  h with
  counted := by simpa [Deed.isCall] using h.counted
  calls := by simpa [Deed.isCall] using h.calls
  made := by simpa [Deed.isTool, Nat.add_one_le_iff] using hmade
  once := by
    rw [nativeIds_append]
    refine List.nodup_append'.2 ⟨h.once, by cases callId <;> simp [Deed.callId], fun id hold hnew => ?_⟩
    exact (hid id (by simpa [Deed.callId] using hnew)).2 hold
  known := by
    intro id hmem
    rw [nativeIds_append] at hmem
    rcases List.mem_append.1 hmem with hold | hnew
    · exact h.known id hold
    · exact (hid id (by simpa [Deed.callId] using hnew)).1
  order := clear.order _ h.order }

theorem register (h : Budgeted E s) (id : String) :
    Budgeted E (s.setSession { s.session with executedCallIds := s.session.executedCallIds ++ [id] }) :=
  { h with known := fun known hknown => List.mem_append_left _ (h.known known hknown) }

/-- A tool call is counted, when the budget has room for it. -/
theorem count (h : Budgeted E s) (room : s.spent.toolCallAllowed E.limits = none) :
    Budgeted E { s with spent := { s.spent with toolCallsMade := s.spent.toolCallsMade + 1 } } := {
  h with
  made := h.made.trans (Nat.le_succ _)
  tools := by
    intro n hn
    unfold Spent.toolCallAllowed at room
    rw [hn, Option.any_some] at room
    by_contra hover
    have hfull : n ≤ s.spent.toolCallsMade := Nat.lt_succ_iff.1 (Nat.lt_of_not_le hover)
    rw [if_pos (decide_eq_true hfull)] at room
    cases room }

theorem step (h : Budgeted E s) : Budgeted E (s.setSession { s.session with steps := s.session.steps + 1 }) :=
  { h with counted := h.counted.trans (Nat.le_succ _) }

end Budgeted

namespace Kept
variable {s₀ s t u : Runtime W}

theorem refl (h : Budgeted E s) : Kept E s s :=
  ⟨h, ⟨[], (List.append_nil _).symm, fun _ _ hm => by cases hm⟩, ⟨[], (List.append_nil _).symm, fun _ hm => by cases hm⟩,
    le_rfl, rfl⟩

theorem trans (h : Kept E s t) (h' : Kept E t u) : Kept E s u where
  budgeted := h'.budgeted
  history := by
    obtain ⟨ms, hms, hanswer⟩ := h.history
    obtain ⟨ms', hms', hanswer'⟩ := h'.history
    refine ⟨ms ++ ms', by rw [hms', hms, List.append_assoc], fun hmode m hm => ?_⟩
    rcases List.mem_append.1 hm with hm | hm
    · exact hanswer hmode m hm
    · exact hanswer' hmode m hm
  told := by
    obtain ⟨ms, hms, -⟩ := h.history
    obtain ⟨ds, hds, htold⟩ := h.told
    obtain ⟨ds', hds', htold'⟩ := h'.told
    refine ⟨ds ++ ds', by rw [hds', hds, List.append_assoc], fun m hm => ?_⟩
    rcases List.mem_append.1 hm with hm | hm
    · exact htold m hm
    · exact (hms ▸ List.prefix_append _ _ : s.session.messages <+: t.session.messages).trans (htold' m hm)
  steps := h.steps.trans h'.steps
  begun := h'.begun.trans h.begun

/-- A state in which nothing more was said or done. -/
theorem still (h : Kept E s₀ s) (budgeted : Budgeted E t) (messages : t.session.messages = s.session.messages)
    (deeds : t.deeds = s.deeds) (steps : s.session.steps ≤ t.session.steps) (begun : t.session.begun = s.session.begun) :
    Kept E s₀ t where
  budgeted := budgeted
  history := by rw [messages]; exact h.history
  told := by rw [deeds]; exact h.told
  steps := h.steps.trans steps
  begun := begun.trans h.begun

theorem quiet (h : Kept E s₀ s) (hq : Quiet s t) : Kept E s₀ t :=
  h.still (h.budgeted.quiet hq) hq.messages hq.deeds hq.steps.ge hq.begun

theorem say (h : Kept E s₀ s) {m : Message} (hm : E.mode = .nativeTool → m.isAnswer = false) :
    Kept E s₀ (s.setSession { s.session with messages := s.session.messages ++ [m] }) :=
  h.trans {
    budgeted := { h.budgeted with }
    history := ⟨[m], rfl, fun hmode m' hm' => by rw [List.mem_singleton.1 hm']; exact hm hmode⟩
    told := ⟨[], (List.append_nil _).symm, fun _ hm => by cases hm⟩
    steps := le_rfl
    begun := rfl }

/-- Something is done that is no call. -/
theorem act (h : Kept E s₀ s) (d : Deed) (hd : d.isCall = false)
    (budgeted : Budgeted E { s with deeds := s.deeds ++ [d] }) : Kept E s₀ { s with deeds := s.deeds ++ [d] } :=
  h.trans {
    budgeted := budgeted
    history := (refl h.budgeted).history
    told := ⟨[d], rfl, fun m hm => by rw [← List.mem_singleton.1 hm] at hd; cases hd⟩
    steps := le_rfl
    begun := rfl }

theorem observe (h : Kept E s₀ s) : Kept E s₀ { s with deeds := s.deeds ++ [.observed] } :=
  h.act .observed rfl h.budgeted.observe

/-- The model is told all that was said. -/
theorem call (h : Kept E s₀ s) (hcounted : calls s.deeds < s.session.steps)
    (hsteps : s.session.steps ≤ E.limits.maxSteps) :
    Kept E s₀ { s with deeds := s.deeds ++ [.called s.session.messages] } :=
  h.trans {
    budgeted := h.budgeted.call _ hcounted hsteps
    history := (refl h.budgeted).history
    told := by
      refine ⟨[.called s.session.messages], rfl, fun m hm => ?_⟩
      cases List.mem_singleton.1 hm
      exact List.prefix_rfl
    steps := le_rfl
    begun := rfl }

theorem execute (h : Kept E s₀ s) (clear : s.Clear) (callId : Option String) (name : String)
    (hmade : tools s.deeds < s.spent.toolCallsMade)
    (hid : ∀ id ∈ callId, id ∈ s.session.executedCallIds ∧ id ∉ nativeIds s.deeds) :
    Kept E s₀ { s with deeds := s.deeds ++ [.executed callId name] } :=
  h.act _ rfl (h.budgeted.execute clear callId name hmade hid)

theorem register (h : Kept E s₀ s) (id : String) :
    Kept E s₀ (s.setSession { s.session with executedCallIds := s.session.executedCallIds ++ [id] }) :=
  h.still (h.budgeted.register id) rfl rfl le_rfl rfl

theorem count (h : Kept E s₀ s) (room : s.spent.toolCallAllowed E.limits = none) :
    Kept E s₀ { s with spent := { s.spent with toolCallsMade := s.spent.toolCallsMade + 1 } } :=
  h.still (h.budgeted.count room) rfl rfl le_rfl rfl

theorem setStop (h : Kept E s₀ s) {stop : Option Reason} (hstop : stop ≠ some .finalAnswer) :
    Kept E s₀ { s with lastCallStop := stop } :=
  h.still { h.budgeted with stop := hstop } rfl rfl le_rfl rfl

end Kept

theorem Runtime.Clear.act {s : Runtime W} (h : s.Clear) {d : Deed} (hd : d ≠ .observed) :
    Runtime.Clear { s with deeds := s.deeds ++ [d] } := by
  intro hmem
  rcases List.mem_append.1 hmem with hold | hnew
  · exact h hold
  · exact hd (List.mem_singleton.1 hnew).symm

/-! ### Parts of the agent -/

/-- However it ends, it has kept to the budget; when it returns, `ok` holds. -/
def Keeps {α : Type} (E : Setup W) (s₀ : Runtime W) (x : Task W α) (s : Runtime W) (ok : α → Runtime W → Prop) : Prop :=
  x.wp s (fun a t => Kept E s₀ t ∧ ok a t) (fun _ t => Kept E s₀ t)

namespace Keeps
variable {α β : Type} {x : Task W α} {f : α → Task W β} {s₀ s : Runtime W} {ok : α → Runtime W → Prop}
  {okb : β → Runtime W → Prop}

theorem pure (h : Kept E s₀ s) {a : α} (ha : ok a s) : Keeps E s₀ (Pure.pure a) s ok := ⟨h, ha⟩

theorem raise (h : Kept E s₀ s) {e : Fault} : Keeps E s₀ (Op.raise e) s ok := h

theorem bind (hx : Keeps E s₀ x s ok) (hf : ∀ a t, Kept E s₀ t → ok a t → Keeps E s₀ (f a) t okb) :
    Keeps E s₀ (x >>= f) s okb :=
  Op.wp_bind.2 (Op.wp_mono hx (fun a t ht => hf a t ht.1 ht.2) (fun _ _ ht => ht))

theorem mono {ok' : α → Runtime W → Prop} (hx : Keeps E s₀ x s ok) (hok : ∀ a t, Kept E s₀ t → ok a t → ok' a t) :
    Keeps E s₀ x s ok' :=
  Op.wp_mono hx (fun a t ht => ⟨ht.1, hok a t ht.1 ht.2⟩) (fun _ _ ht => ht)

/-- Go on after a quiet part. -/
theorem next (hx : Quietly x) (h : Kept E s₀ s) (hf : ∀ a t, Quiet s t → Kept E s₀ t → Keeps E s₀ (f a) t okb) :
    Keeps E s₀ (x >>= f) s okb :=
  hx.next (fun a t ht => hf a t ht (h.quiet ht)) (fun _ _ ht => h.quiet ht)

/-- Go on after the state was read. -/
theorem read {g : Runtime W → α} (hf : Keeps E s₀ (f (g s)) s okb) : Keeps E s₀ (Op.gets g >>= f) s okb :=
  Op.wp_bind.2 (Op.wp_gets.2 hf)

/-- Go on after the state was changed. -/
theorem change {g : Runtime W → Runtime W} {f : Unit → Task W β} (hf : Keeps E s₀ (f ()) (g s) okb) :
    Keeps E s₀ (Op.modify g >>= f) s okb :=
  Op.wp_bind.2 (Op.wp_modify.2 hf)

theorem lift {y : Except Fault α} (h : Kept E s₀ s) (hf : ∀ a, y = .ok a → Keeps E s₀ (f a) s okb) :
    Keeps E s₀ (Op.lift y >>= f) s okb :=
  Op.wp_bind.2 (Op.wp_lift.2 ⟨fun a ha => hf a ha, fun _ _ => h⟩)

theorem ite {p : Prop} [Decidable p] {y : Task W α} (hx : p → Keeps E s₀ x s ok) (hy : ¬p → Keeps E s₀ y s ok) :
    Keeps E s₀ (if p then x else y) s ok :=
  Op.wp_ite hx hy

end Keeps

end

end Motte.Agent
