import Motte.Storage.JobMoves

/-! The call ledger of a job.

A call enters the ledger when it is sent and is never removed. What it was sent
with, its id and its reservation, are its terms: settling a call, in any of the
ways there are, changes its status and outcome and leaves its terms. -/
namespace Motte.Storage
open Foundation

/-- What a call was sent with. -/
def Call.terms (c : Call) : String × Option Reservation := (c.callId, c.reservation)

theorem callIds_of_terms {calls calls' : List Call} (h : calls'.map Call.terms = calls.map Call.terms) :
    calls'.map (·.callId) = calls.map (·.callId) := by
  have := congrArg (List.map Prod.fst) h
  simpa [List.map_map, Function.comp_def, Call.terms] using this

/-! ### Settling one call -/

theorem editCall_map {β : Type} {g : Call → β} {f : Call → Call} (hg : ∀ c, g (f c) = g c)
    (calls : List Call) (callId : String) : (editCall calls callId f).map g = calls.map g := by
  induction calls with
  | nil => rfl
  | cons c rest ih =>
    unfold editCall
    split
    · simp [hg]
    · simp [ih]

/-- With distinct call ids, an edit replaces the one call it names. -/
theorem mem_editCall {calls : List Call} {callId : String} {f : Call → Call}
    (hn : (calls.map (·.callId)).Nodup) {c : Call} :
    c ∈ editCall calls callId f ↔
      (c ∈ calls ∧ c.callId ≠ callId) ∨ ∃ old ∈ calls, old.callId = callId ∧ c = f old := by
  induction calls with
  | nil => simp [editCall]
  | cons head rest ih =>
    rw [List.map_cons, List.nodup_cons] at hn
    unfold editCall
    split
    · rename_i hid
      have others : ∀ x ∈ rest, x.callId ≠ callId := by
        intro x hx he
        exact hn.1 (List.mem_map.2 ⟨x, hx, he.trans hid.symm⟩)
      constructor
      · rintro (_ | ⟨_, hc⟩)
        · exact .inr ⟨head, List.mem_cons_self .., hid, rfl⟩
        · exact .inl ⟨List.mem_cons_of_mem _ hc, others c hc⟩
      · rintro (⟨hc, hne⟩ | ⟨old, hold, he, rfl⟩)
        · rcases List.mem_cons.1 hc with rfl | hc
          · exact absurd hid hne
          · exact List.mem_cons_of_mem _ hc
        · rcases List.mem_cons.1 hold with rfl | hold
          · exact List.mem_cons_self ..
          · exact absurd he (others old hold)
    · rename_i hid
      rw [List.mem_cons, ih hn.2]
      constructor
      · rintro (rfl | ⟨hc, hne⟩ | ⟨old, hold, he⟩)
        · exact .inl ⟨List.mem_cons_self .., hid⟩
        · exact .inl ⟨List.mem_cons_of_mem _ hc, hne⟩
        · exact .inr ⟨old, List.mem_cons_of_mem _ hold, he⟩
      · rintro (⟨hc, hne⟩ | ⟨old, hold, he, hc⟩)
        · rcases List.mem_cons.1 hc with rfl | hc
          · exact .inl rfl
          · exact .inr (.inl ⟨hc, hne⟩)
        · rcases List.mem_cons.1 hold with rfl | hold
          · exact absurd he hid
          · exact .inr (.inr ⟨old, hold, he, hc⟩)

/-! ### Settling calls in bulk -/

theorem Swept.map {β : Type} {g : Call → β} {w : Sweep} (hg : ∀ c, g (w.mark c) = g c)
    {calls calls' : List Call} (h : Swept w calls calls') : calls'.map g = calls.map g := by
  induction h with
  | nil => rfl
  | cons hc _ ih =>
    rcases hc with rfl | ⟨-, rfl⟩
    · simp [ih]
    · simp [hg, ih]

theorem Swept.mem {w : Sweep} {calls calls' : List Call} (h : Swept w calls calls') {c' : Call}
    (hc : c' ∈ calls') : ∃ c ∈ calls, c' = c ∨ c.status = w.status ∧ c' = w.mark c := by
  induction h with
  | nil => cases hc
  | cons hcc _ ih =>
    rcases List.mem_cons.1 hc with rfl | hc
    · exact ⟨_, List.mem_cons_self .., hcc⟩
    · obtain ⟨c, hmem, h⟩ := ih hc
      exact ⟨c, List.mem_cons_of_mem _ hmem, h⟩

/-- A sweep that selects no call leaves the ledger. -/
theorem Swept.eq_of_none {w : Sweep} {calls calls' : List Call} (h : Swept w calls calls')
    (none : ∀ c ∈ calls, c.status ≠ w.status) : calls' = calls := by
  induction h with
  | nil => rfl
  | cons hc _ ih =>
    rcases hc with rfl | ⟨hst, -⟩
    · rw [ih (fun c hc => none c (List.mem_cons_of_mem _ hc))]
    · exact absurd hst (none _ (List.mem_cons_self ..))

/-- A sweep puts no call in flight. -/
theorem Swept.quiet {w : Sweep} {calls calls' : List Call} (h : Swept w calls calls')
    (hq : ∀ c ∈ calls, c.status ≠ .dispatching) : ∀ c ∈ calls', c.status ≠ .dispatching := by
  intro c' hc'
  obtain ⟨c, hc, rfl | ⟨-, rfl⟩⟩ := h.mem hc'
  · exact hq c' hc
  · exact fun h => nomatch h

theorem inFlight_eq_false {j : ScoringJob} :
    j.inFlight = false ↔ ∀ c ∈ j.calls, c.status ≠ .dispatching := by
  simp [ScoringJob.inFlight]

/-! ### How an edit changes the ledger -/

/-- The caller's changes, where the request has any, do not name the calls. -/
def LeavesCalls (q : Request) : Prop := ∀ c ∈ q.changes, c.calls = none

theorem settledLedger_calls {r : SettleCallRequest} {j u : StoredJob} (h : settleRecord r j = .ok u)
    (hq : r.jobChanges.calls = none) : u.1.calls = editCall j.1.calls r.callId (settledCall r) := by
  rw [(settleRecord_ok h).2]
  simp [JobChanges.apply, hq, settledLedger]

/-- An edit keeps the terms of all calls, or adds a call that was allowed. -/
theorem JobEdit.terms {q : Request} {key : String} {j u : StoredJob} (h : JobEdit q key j u)
    (hq : LeavesCalls q) :
    u.1.calls.map Call.terms = j.1.calls.map Call.terms ∨
      ∃ r d, q = .job (.beginCall r) ∧ checkDispatch r j = .ok () ∧
        u.1.calls = j.1.calls ++ [dispatchedCall r d] := by
  cases h with
  | claim h => rcases claimRecord_ok h with ⟨-, hu⟩ | ⟨-, hu⟩ <;> exact .inl (by rw [hu])
  | claimNext h => rcases claimRecord_ok h with ⟨-, hu⟩ | ⟨-, hu⟩ <;> exact .inl (by rw [hu])
  | transition h =>
    obtain ⟨-, -, -, hu⟩ := transitionRecord_ok h
    have hcalls : u.1.calls = j.1.calls := by
      rw [hu]
      exact congrArg (fun o => Option.getD o j.1.calls) (hq _ rfl)
    exact .inl (by rw [hcalls])
  | beginCall d hc h => exact .inr ⟨_, d, rfl, hc, by rw [nextRevision_ok_iff.1 h]⟩
  | settleCall _ _ h =>
    rw [settledLedger_calls h (hq _ rfl)]
    exact .inl (editCall_map (f := settledCall _) (fun _ => rfl) _ _)
  | abandon _ _ hw h =>
    rw [nextRevision_ok_iff.1 h]
    exact .inl (hw.map (fun _ => rfl))
  | request _ h => exact .inl (by rw [nextRevision_ok_iff.1 h])
  | withdraw _ h => exact .inl (by rw [nextRevision_ok_iff.1 h])
  | requeue _ _ h => exact .inl (by rw [nextRevision_ok_iff.1 h])
  | interrupt _ hw h =>
    rw [nextRevision_ok_iff.1 h]
    exact .inl (hw.map (fun _ => rfl))
  | publish _ _ h => exact .inl (by rw [nextRevision_ok_iff.1 h])
  | cancelStopped _ _ hw => exact .inl (hw.map (fun _ => rfl))
  | recoveryStopped _ hw => exact .inl (hw.map (fun _ => rfl))

theorem reserve_fresh {j : ScoringJob} {call : CallData} (h : reserveCallAllowance j call = .ok ()) :
    ∀ c ∈ j.calls, c.callId ≠ call.callId := by
  simp only [reserveCallAllowance, except_bind_ok_iff, ensure_ok_iff, exists_const] at h
  exact h.2.1

/-- Call ids stay distinct: a call id is sent once. -/
theorem JobEdit.callIds_nodup {q : Request} {key : String} {j u : StoredJob} (h : JobEdit q key j u)
    (hq : LeavesCalls q) (hn : (j.1.calls.map (·.callId)).Nodup) : (u.1.calls.map (·.callId)).Nodup := by
  rcases h.terms hq with hsame | ⟨r, d, -, hc, hu⟩
  · rw [callIds_of_terms hsame]
    exact hn
  · have fresh := reserve_fresh (checkDispatch_ok hc).2.2.2
    rw [hu, List.map_append]
    refine List.nodup_append.2 ⟨hn, List.nodup_singleton _, ?_⟩
    intro a ha b hb hab
    obtain ⟨c, hcm, rfl⟩ := List.mem_map.1 ha
    rw [List.map_singleton, List.mem_singleton] at hb
    exact fresh c hcm (hab.trans hb)

end Motte.Storage
