import Motte.Storage.Interactive

/-! Approvals are claimed at most once.

What one call can do to the two tables is said once (`DeskMove`). From it: keys
and dedupe keys stay unique, revisions only grow, a command that left the queue
never returns to it, and an approval that left `pending` stays out, unless a worker
writes the session back with the approval pending again. -/
namespace Motte.Storage
open Foundation

/-! ### What a call can do -/

/-- A command with its status and revision moved on. -/
structure CommandAdvanced (old new : Command) (status : CommandStatus) : Prop where
  allowed : status ∈ old.status.transitions
  status_eq : new.status = status
  id : new.id = old.id
  runId : new.runId = old.runId
  dedupeKey : new.dedupeKey = old.dedupeKey
  decision : new.approvalId.filter (fun _ => decides new.type) = old.approvalId.filter (fun _ => decides old.type)

/-- A command moved on by a call that names it. -/
structure CommandMoved (s : Desk) (commandId : String) (status : CommandStatus) (old new : Command) (t : Desk) :
    Prop where
  found : s.commands.get commandId = some old
  change : CommandAdvanced old new status
  commands : t.commands = s.commands.set new.id new

/-- A command that was claimed, and the approval it decides. -/
structure ClaimMade (s : Desk) (q : ClaimRequest) (old new : Command) (session : Session) (t : Desk) : Prop where
  moved : CommandMoved s q.commandId .delivered old new t
  held : s.sessions.get q.sessionId = some session
  decision : ∀ id, old.approvalId.filter (fun _ => decides old.type) = some id →
    (∃ a, session.pendingApprovals.get id = some a ∧ a.state = "pending") ∧
      t.sessions = s.sessions.set (reserve session id q.commandId).sessionId (reserve session id q.commandId)
  undecided : old.approvalId.filter (fun _ => decides old.type) = none → t.sessions = s.sessions

/-- A session written back by a transition. -/
structure Rewritten (old new : Session) (c : SessionChanges) : Prop where
  sessionId : new.sessionId = old.sessionId
  revision : old.revision ≤ new.revision
  control : old.controlRevision ≤ new.controlRevision
  approvals : ∀ key a, old.pendingApprovals.get key = some a → ∃ a', new.pendingApprovals.get key = some a' ∧
    (a' = a ∨ ∃ incoming, c.pendingApprovals = some incoming ∧ incoming.get key = some a')

/-- Every effect of a call on the sessions and the commands. -/
inductive DeskMove (s : Desk) : DeskRequest → Desk → Prop
  | nothing {r t} (sessions : t.sessions = s.sessions) (commands : t.commands = s.commands) : DeskMove s r t
  | opened {r t} (new : Session) (absent : s.sessions.get new.sessionId = none)
      (sessions : t.sessions = s.sessions.set new.sessionId new) (commands : t.commands = s.commands) :
      DeskMove s (.createSession r) t
  | rewritten {r t} (old new : Session) (found : s.sessions.get r.sessionId = some old)
      (expected : old.revision = r.expectedRevision ∧ old.state = r.expectedState)
      (change : Rewritten old new r.changes) (sessions : t.sessions = s.sessions.set new.sessionId new)
      (commands : t.commands = s.commands) : DeskMove s (.transitionSession r) t
  | submitted {r t} (new : Command) (queued : new.status = .queued) (absent : s.commands.get new.id = none)
      (single : deduped s new.runId new.dedupeKey = none) (sessions : t.sessions = s.sessions)
      (commands : t.commands = s.commands.set new.id new) : DeskMove s (.createOrGet r) t
  | claimed {r t} (old new : Command) (session : Session) (made : ClaimMade s r old new session t) :
      DeskMove s (.claim r) t
  | advanced {r t} (old new : Command) (moved : CommandMoved s r.commandId r.status old new t)
      (sessions : t.sessions = s.sessions) : DeskMove s (.transitionCommand r) t

variable {s t : Desk} {r : DeskRequest}

theorem advanceCommand_ok {old new : Command} {rev : Int} {expected status : CommandStatus} {changes : Fields}
    (h : advanceCommand old rev expected status changes = .ok new) : CommandAdvanced old new status := by
  simp only [advanceCommand, except_bind_ok_iff, ensure_ok_iff, exists_const, except_pure_ok_iff] at h
  obtain ⟨⟨-, rfl⟩, allowed, -, rfl⟩ := h
  exact ⟨allowed, rfl, rfl, rfl, rfl, rfl⟩

theorem checkApprovals_ok {incoming : Table String Approval} {rows : List (String × Approval)} {u : Unit}
    (h : checkApprovals incoming rows = .ok u) : ∀ row ∈ rows, ∃ a, incoming.get row.1 = some a := by
  induction rows with
  | nil => exact fun _ => nofun
  | cons row rest ih =>
    obtain ⟨key, approval⟩ := row
    simp only [checkApprovals, except_bind_ok_iff] at h
    obtain ⟨_, hhead, hrest⟩ := h
    intro row hrow
    rcases List.mem_cons.1 hrow with rfl | hrow
    · unfold checkApproval at hhead
      split at hhead
      · cases hhead
      · rename_i new hnew
        exact ⟨new, hnew⟩
    · exact ih hrest row hrow

theorem rewritten_of_checked {old : Session} {r : SessionTransition} {u : Unit} (h : checkTransition old r = .ok u) :
    (old.revision = r.expectedRevision ∧ old.state = r.expectedState) ∧
      Rewritten old (changedSession old r.expectedRevision r.changes) r.changes := by
  simp only [checkTransition, except_bind_ok_iff, ensure_ok_iff, exists_const] at h
  obtain ⟨expected, -, -, -, -, happrovals⟩ := h
  refine ⟨expected, rfl, ?_, ?_, fun key a ha => ?_⟩
  · show old.revision ≤ r.expectedRevision + 1
    omega
  · show old.controlRevision ≤ if changesControl old r.changes then _ else _
    split <;> omega
  · show ∃ a', (r.changes.pendingApprovals.getD old.pendingApprovals).get key = some a' ∧ _
    cases hc : r.changes.pendingApprovals with
    | none => exact ⟨a, ha, .inl rfl⟩
    | some incoming =>
      rw [hc] at happrovals
      obtain ⟨a', ha'⟩ := checkApprovals_ok happrovals (key, a) (Table.mem_of_get ha)
      exact ⟨a', ha', .inr ⟨incoming, rfl, ha'⟩⟩

theorem checkBinding_ok {run : Option RunFacts} {session : Option Session} {c : Command} {now : Int} {x : Session}
    (h : checkBinding run session c now = .ok x) :
    session = some x ∧ ∀ id, c.approvalId.filter (fun _ => decides c.type) = some id →
      ∃ a, x.pendingApprovals.get id = some a ∧ a.state = "pending" := by
  unfold checkBinding at h
  simp only [except_bind_ok_iff, ensure_ok_iff, exists_const] at h
  obtain ⟨-, h⟩ := h
  cases session with
  | none => cases h
  | some session =>
    simp only [except_bind_ok_iff, ensure_ok_iff, exists_const] at h
    obtain ⟨-, -, -, _, -, h⟩ := h
    split at h
    · rename_i decided
      split at h
      · simp only [except_bind_ok_iff] at h
        obtain ⟨_, h, -⟩ := h
        cases h
      · rename_i approval happroval
        simp only [except_bind_ok_iff, ensure_ok_iff, exists_const] at h
        obtain ⟨pending, -, _, -, h⟩ := h
        cases h
        refine ⟨rfl, fun id hid => ⟨approval, ?_, pending⟩⟩
        rw [(Option.filter_eq_some_iff.1 hid).1] at happroval
        exact happroval
    · rename_i undecided
      cases h
      refine ⟨rfl, fun id hid => ?_⟩
      exact absurd (Option.filter_eq_some_iff.1 hid).2 (by simpa using undecided)

theorem claimChecks_ok {q : ClaimRequest} {c new : Command} {x : Session} {e : Option Event}
    (h : claimChecks s q c = .ok (x, new, e)) :
    s.sessions.get q.sessionId = some x ∧ CommandAdvanced c new .delivered ∧
      ∀ id, c.approvalId.filter (fun _ => decides c.type) = some id →
        ∃ a, x.pendingApprovals.get id = some a ∧ a.state = "pending" := by
  simp only [claimChecks, except_bind_ok_iff, ensure_ok_iff, exists_const, except_pure_ok_iff, Prod.mk.injEq] at h
  obtain ⟨session, hbound, -, stored, hadv, _, -, rfl, rfl, -⟩ := h
  obtain ⟨held, pending⟩ := checkBinding_ok hbound
  exact ⟨held, advanceCommand_ok hadv, pending⟩

theorem reserve_sessionId (session : Session) (id commandId : String) :
    (reserve session id commandId).sessionId = session.sessionId := by
  unfold reserve
  split <;> rfl

/-! Each call checks first and writes last, so raising leaves the tables alone. -/

theorem createSession_moves (q : SessionInput) :
    Op.wp (createSession q) s (fun _ t => DeskMove s (.createSession q) t) (fun _ t => t = s) := by
  unfold createSession
  rw [Op.wp_bind, Op.wp_lift]
  refine ⟨fun _ _ => ?_, fun _ _ => rfl⟩
  rw [Op.wp_bind, Op.wp_gets, Op.wp_bind, Op.wp_lift]
  refine ⟨fun _ _ => ?_, fun _ _ => rfl⟩
  rw [Op.wp_bind, Op.wp_gets, Op.wp_bind, Op.wp_lift]
  refine ⟨fun _ absent => ?_, fun _ _ => rfl⟩
  rw [Op.wp_bind, Op.wp_modify, Op.wp_pure]
  have fresh : s.sessions.get q.sessionId = none := by simpa using absent
  exact .opened (storedSession q) fresh rfl rfl

theorem transitionSession_moves (q : SessionTransition) :
    Op.wp (transitionSession q) s (fun _ t => DeskMove s (.transitionSession q) t) (fun _ t => t = s) := by
  unfold transitionSession
  rw [Op.wp_bind, Op.wp_lift]
  refine ⟨fun _ _ => ?_, fun _ _ => rfl⟩
  rw [Op.wp_bind, Op.wp_gets]
  cases hfound : s.sessions.get q.sessionId with
  | none => exact rfl
  | some old =>
    rw [Op.wp_bind, Op.wp_lift]
    refine ⟨fun _ checked => ?_, fun _ _ => rfl⟩
    obtain ⟨expected, change⟩ := rewritten_of_checked checked
    rw [Op.wp_bind, Op.wp_modify, Op.wp_pure]
    exact .rewritten old _ hfound expected change rfl rfl

theorem newCommand_ok {q : CommandInput} {c : Command} (h : newCommand q = .ok c) : c.status = .queued := by
  simp only [newCommand, except_bind_ok_iff, ensure_ok_iff, exists_const, except_pure_ok_iff] at h
  obtain ⟨-, -, -, -, rfl⟩ := h
  rfl

theorem createOrGet_moves (q : CommandInput) :
    Op.wp (createOrGet q) s (fun _ t => DeskMove s (.createOrGet q) t) (fun _ t => t = s) := by
  unfold createOrGet
  rw [Op.wp_bind, Op.wp_lift]
  refine ⟨fun stored hnew => ?_, fun _ _ => rfl⟩
  rw [Op.wp_bind, Op.wp_lift]
  refine ⟨fun pending _ => ?_, fun _ _ => rfl⟩
  rw [Op.wp_bind, Op.wp_gets, Op.wp_bind, Op.wp_gets]
  cases single : deduped s stored.runId stored.dedupeKey with
  | some existing =>
    rw [Op.wp_bind, Op.wp_lift]
    exact ⟨fun _ _ => .nothing rfl rfl, fun _ _ => rfl⟩
  | none =>
    rw [Op.wp_bind, Op.wp_gets, Op.wp_bind, Op.wp_lift]
    refine ⟨fun _ _ => ?_, fun _ _ => rfl⟩
    rw [Op.wp_bind, Op.wp_gets, Op.wp_bind, Op.wp_lift]
    refine ⟨fun _ absent => ?_, fun _ _ => rfl⟩
    rw [ensure_ok_iff] at absent
    rw [Op.wp_bind, putCommand, Op.wp_modify, Op.wp_bind, audit, Op.wp_modify, Op.wp_pure]
    exact .submitted stored (newCommand_ok hnew) absent single rfl rfl

theorem claimCommand_made (q : ClaimRequest) :
    Op.wp (claimCommand q) s (fun c t => ∃ old session, ClaimMade s q old c session t) (fun _ t => t = s) := by
  unfold claimCommand
  rw [Op.wp_bind, Op.wp_gets]
  cases hfound : s.commands.get q.commandId with
  | none => exact rfl
  | some command =>
    rw [Op.wp_bind, Op.wp_gets, Op.wp_bind, Op.wp_lift]
    refine ⟨fun checked hchecked => ?_, fun _ _ => rfl⟩
    obtain ⟨session, stored, pending⟩ := checked
    obtain ⟨held, change, hpending⟩ := claimChecks_ok hchecked
    dsimp only
    cases hid : command.approvalId.filter (fun _ => decides command.type) with
    | none =>
      rw [Op.wp_bind, putCommand, Op.wp_modify, Op.wp_bind, audit, Op.wp_modify, Op.wp_pure]
      refine ⟨command, session, ⟨hfound, change, rfl⟩, held, fun id h => ?_, fun _ => rfl⟩
      cases hid.symm.trans h
    | some approvalId =>
      rw [Op.wp_bind, putSession, Op.wp_modify, Op.wp_bind, putCommand, Op.wp_modify, Op.wp_bind, audit, Op.wp_modify, Op.wp_pure]
      refine ⟨command, session, ⟨hfound, change, rfl⟩, held, fun id h => ?_, fun h => ?_⟩
      · cases hid.symm.trans h
        exact ⟨hpending approvalId hid, rfl⟩
      · cases hid.symm.trans h

theorem transitionCommand_moved (q : CommandTransition) :
    Op.wp (transitionCommand q) s
      (fun c t => ∃ old, CommandMoved s q.commandId q.status old c t ∧ t.sessions = s.sessions) (fun _ t => t = s) := by
  unfold transitionCommand
  rw [Op.wp_bind, Op.wp_lift]
  refine ⟨fun _ _ => ?_, fun _ _ => rfl⟩
  rw [Op.wp_bind, Op.wp_gets]
  cases hfound : s.commands.get q.commandId with
  | none => exact rfl
  | some command =>
    rw [Op.wp_bind, Op.wp_lift]
    refine ⟨fun stored hadv => ?_, fun _ _ => rfl⟩
    dsimp only
    rw [Op.wp_bind, Op.wp_lift]
    refine ⟨fun pending _ => ?_, fun _ _ => rfl⟩
    rw [Op.wp_bind, putCommand, Op.wp_modify, Op.wp_bind, audit, Op.wp_modify, Op.wp_pure]
    exact ⟨command, ⟨hfound, advanceCommand_ok hadv, rfl⟩, rfl⟩

/-- A call does one of these. -/
theorem deskStep_moves (s : Desk) (r : DeskRequest) : DeskMove s r (deskStep r s) := by
  unfold deskStep
  cases r with
  | setRun runId run => exact .nothing rfl rfl
  | createSession q =>
    rw [serveDesk, Op.bind_pure_state]
    exact Op.wp_state (Op.wp_mono (createSession_moves q) (fun _ _ h => h) (fun _ _ h => h ▸ .nothing rfl rfl))
  | transitionSession q =>
    rw [serveDesk, Op.bind_pure_state]
    exact Op.wp_state (Op.wp_mono (transitionSession_moves q) (fun _ _ h => h) (fun _ _ h => h ▸ .nothing rfl rfl))
  | createOrGet q =>
    rw [serveDesk, Op.bind_pure_state]
    exact Op.wp_state (Op.wp_mono (createOrGet_moves q) (fun _ _ h => h) (fun _ _ h => h ▸ .nothing rfl rfl))
  | claim q =>
    rw [serveDesk, Op.bind_pure_state]
    exact Op.wp_state (Op.wp_mono (claimCommand_made q) (fun _ _ ⟨_, _, h⟩ => .claimed _ _ _ h)
      (fun _ _ h => h ▸ .nothing rfl rfl))
  | transitionCommand q =>
    rw [serveDesk, Op.bind_pure_state]
    exact Op.wp_state (Op.wp_mono (transitionCommand_moved q) (fun _ _ ⟨_, h, hs⟩ => .advanced _ _ h hs)
      (fun _ _ h => h ▸ .nothing rfl rfl))

/-! ### What every call keeps -/

/-- Records stand under their own ids, and a dedupe key of a run names one command. -/
structure DeskKeyed (s : Desk) : Prop where
  sessions : ∀ k x, s.sessions.get k = some x → x.sessionId = k
  commands : ∀ k c, s.commands.get k = some c → c.id = k
  single : ∀ k k' c c', s.commands.get k = some c → s.commands.get k' = some c' → c.runId = c'.runId →
    c.dedupeKey = c'.dedupeKey → k = k'

theorem deduped_none {runId dedupeKey : String} (h : deduped s runId dedupeKey = none) {k : String} {c : Command}
    (hc : s.commands.get k = some c) (hrun : c.runId = runId) : c.dedupeKey ≠ dedupeKey := by
  intro hkey
  have hmem : c ∈ s.commands.rows.map Prod.snd := List.mem_map.2 ⟨(k, c), Table.mem_of_get hc, rfl⟩
  have hnot := List.find?_eq_none.1 h c hmem
  simp [hrun, hkey] at hnot

theorem DeskKeyed.session_set (h : DeskKeyed s) {x : Session} (sessions : t.sessions = s.sessions.set x.sessionId x) :
    ∀ k y, t.sessions.get k = some y → y.sessionId = k := by
  intro k y hy
  rw [sessions, Table.get_set] at hy
  split at hy
  · rename_i hk
    cases hy
    exact hk.symm
  · exact h.sessions k y hy

/-- The command tables after a command moved on. -/
theorem DeskKeyed.moved (h : DeskKeyed s) {id : String} {status : CommandStatus} {old new : Command}
    (moved : CommandMoved s id status old new t) (sessions : ∀ k x, t.sessions.get k = some x → x.sessionId = k) :
    DeskKeyed t := by
  have hid : new.id = id := moved.change.id.trans (h.commands id old moved.found)
  have commands := moved.commands
  rw [hid] at commands
  -- Every command of the new table comes from one of the old, with its run and dedupe key.
  have origin (k : String) (c : Command) (hc : t.commands.get k = some c) :
      c.id = k ∧ ∃ c₀, s.commands.get k = some c₀ ∧ c₀.runId = c.runId ∧ c₀.dedupeKey = c.dedupeKey := by
    rw [commands, Table.get_set] at hc
    split at hc
    · rename_i hk
      cases hc
      exact ⟨hid.trans hk.symm, old, hk ▸ moved.found, moved.change.runId.symm, moved.change.dedupeKey.symm⟩
    · exact ⟨h.commands k c hc, c, hc, rfl, rfl⟩
  refine ⟨sessions, fun k c hc => (origin k c hc).1, fun k k' c c' hc hc' hrun hkey => ?_⟩
  obtain ⟨-, c₀, h₀, run₀, key₀⟩ := origin k c hc
  obtain ⟨-, c₁, h₁, run₁, key₁⟩ := origin k' c' hc'
  exact h.single k k' c₀ c₁ h₀ h₁ (by rw [run₀, run₁, hrun]) (by rw [key₀, key₁, hkey])

theorem deskKeyed_step (h : DeskKeyed s) (move : DeskMove s r t) : DeskKeyed t := by
  cases move with
  | nothing sessions commands => exact ⟨sessions ▸ h.sessions, commands ▸ h.commands, commands ▸ h.single⟩
  | opened new absent sessions commands => exact ⟨h.session_set sessions, commands ▸ h.commands, commands ▸ h.single⟩
  | rewritten old new found expected change sessions commands =>
    exact ⟨h.session_set sessions, commands ▸ h.commands, commands ▸ h.single⟩
  | submitted new queued absent single sessions commands =>
    refine ⟨sessions ▸ h.sessions, fun k c hc => ?_, fun k k' c c' hc hc' hrun hkey => ?_⟩
    · rw [commands, Table.get_set] at hc
      split at hc
      · rename_i hk
        cases hc
        exact hk.symm
      · exact h.commands k c hc
    · rw [commands, Table.get_set] at hc hc'
      split at hc
      · rename_i hk
        cases hc
        split at hc'
        · rename_i hk'
          exact hk.trans hk'.symm
        · exact absurd hkey.symm (deduped_none single hc' hrun.symm)
      · split at hc'
        · rename_i hk'
          cases hc'
          exact absurd hkey (deduped_none single hc hrun)
        · exact h.single k k' c c' hc hc' hrun hkey
  | claimed old new session made =>
    refine h.moved made.moved ?_
    cases hid : old.approvalId.filter (fun _ => decides old.type) with
    | none => exact made.undecided hid ▸ h.sessions
    | some id => exact h.session_set (made.decision id hid).2
  | advanced old new moved sessions => exact h.moved moved (sessions ▸ h.sessions)

/-! ### Revisions grow -/

/-- Every session of the first is in the second, at no lower revisions. -/
def RevisionsGrow (s t : Desk) : Prop :=
  ∀ id x, s.sessions.get id = some x →
    ∃ y, t.sessions.get id = some y ∧ x.revision ≤ y.revision ∧ x.controlRevision ≤ y.controlRevision

theorem RevisionsGrow.refl (s : Desk) : RevisionsGrow s s := fun _ x h => ⟨x, h, le_rfl, le_rfl⟩

theorem RevisionsGrow.trans {a b c : Desk} (hab : RevisionsGrow a b) (hbc : RevisionsGrow b c) : RevisionsGrow a c := by
  intro id x hx
  obtain ⟨y, hy, hrev, hctl⟩ := hab id x hx
  obtain ⟨z, hz, hrev', hctl'⟩ := hbc id y hy
  exact ⟨z, hz, hrev.trans hrev', hctl.trans hctl'⟩

/-- One session replaced by one at no lower revisions. -/
theorem RevisionsGrow.set {old new : Session} (found : s.sessions.get new.sessionId = some old)
    (sessions : t.sessions = s.sessions.set new.sessionId new) (revision : old.revision ≤ new.revision)
    (control : old.controlRevision ≤ new.controlRevision) : RevisionsGrow s t := by
  intro id x hx
  by_cases hid : id = new.sessionId
  · subst hid
    cases found.symm.trans hx
    exact ⟨new, by rw [sessions, Table.get_set_self], revision, control⟩
  · exact ⟨x, by rw [sessions, Table.get_set_ne _ _ hid, hx], le_rfl, le_rfl⟩

theorem revisionsGrow_same (sessions : t.sessions = s.sessions) : RevisionsGrow s t :=
  fun _ x hx => ⟨x, sessions ▸ hx, le_rfl, le_rfl⟩

theorem revisionsGrow_step (h : DeskKeyed s) (move : DeskMove s r t) : RevisionsGrow s t := by
  cases move with
  | nothing sessions _ => exact revisionsGrow_same sessions
  | opened new absent sessions _ =>
    intro id x hx
    have hne : id ≠ new.sessionId := by
      rintro rfl
      cases absent.symm.trans hx
    exact ⟨x, by rw [sessions, Table.get_set_ne _ _ hne, hx], le_rfl, le_rfl⟩
  | rewritten old new found _ change sessions _ =>
    have hid := h.sessions _ old found
    exact .set (change.sessionId ▸ hid ▸ found) sessions change.revision change.control
  | submitted _ _ _ _ sessions _ => exact revisionsGrow_same sessions
  | claimed old new session made =>
    cases hid : old.approvalId.filter (fun _ => decides old.type) with
    | none => exact revisionsGrow_same (made.undecided hid)
    | some id =>
      have own := h.sessions _ session made.held
      refine .set (reserve_sessionId session id _ ▸ own ▸ made.held) (made.decision id hid).2 ?_ ?_
      · unfold reserve
        split
        · exact le_rfl
        · exact le_add_of_nonneg_right (by decide)
      · unfold reserve
        split <;> exact le_rfl
  | advanced _ _ _ sessions => exact revisionsGrow_same sessions

/-! ### Deliveries -/

/-- The command a call delivers. -/
def delivers (s : Desk) : DeskRequest → Option String
  | .claim q => (claimCommand q s).1.toOption.map (fun _ => q.commandId)
  | .transitionCommand q =>
    if q.status = .delivered then (transitionCommand q s).1.toOption.map (fun _ => q.commandId) else none
  | _ => none

/-- The command left the queue. -/
def OutOfQueue (s : Desk) (id : String) : Prop := ∃ c, s.commands.get id = some c ∧ c.status ≠ .queued

theorem CommandMoved.get (h : DeskKeyed s) {id : String} {status : CommandStatus} {old new : Command}
    (moved : CommandMoved s id status old new t) : t.commands.get id = some new := by
  rw [moved.commands, moved.change.id, h.commands id old moved.found, Table.get_set_self]

/-- A move to `delivered` dispatches a command that was not. -/
theorem CommandMoved.dispatches (h : DeskKeyed s) {id : String} {old new : Command}
    (moved : CommandMoved s id .delivered old new t) : ¬ OutOfQueue s id ∧ OutOfQueue t id := by
  have hqueued : old.status = .queued := (CommandStatus.transitions_spec moved.change.allowed).2 rfl
  refine ⟨fun ⟨c, hc, hne⟩ => ?_, new, moved.get h, ?_⟩
  · cases moved.found.symm.trans hc
    exact hne hqueued
  · rw [moved.change.status_eq]
    nofun

theorem CommandMoved.stays (h : DeskKeyed s) {id k : String} {status : CommandStatus} {old new : Command}
    (moved : CommandMoved s id status old new t) (spent : OutOfQueue s k) : OutOfQueue t k := by
  obtain ⟨c, hc, hne⟩ := spent
  by_cases hk : k = id
  · subst hk
    refine ⟨new, moved.get h, ?_⟩
    rw [moved.change.status_eq]
    exact (CommandStatus.transitions_spec moved.change.allowed).1
  · refine ⟨c, ?_, hne⟩
    rw [moved.commands, moved.change.id, h.commands id old moved.found, Table.get_set_ne _ _ hk, hc]

theorem outOfQueue_step (h : DeskKeyed s) (move : DeskMove s r t) {id : String} (spent : OutOfQueue s id) :
    OutOfQueue t id := by
  have ⟨c, hc, hne⟩ := spent
  cases move with
  | nothing _ commands | opened _ _ _ commands | rewritten _ _ _ _ _ _ commands => exact ⟨c, commands ▸ hc, hne⟩
  | submitted new _ absent _ _ commands =>
    have hid : id ≠ new.id := by
      rintro rfl
      cases absent.symm.trans hc
    exact ⟨c, by rw [commands, Table.get_set_ne _ _ hid, hc], hne⟩
  | claimed _ _ _ made => exact made.moved.stays h spent
  | advanced _ _ moved _ => exact moved.stays h spent

theorem toOption_map_some {α β : Type} {x : Except Err α} {b c : β} (h : x.toOption.map (fun _ => b) = some c) :
    (∃ a, x = .ok a) ∧ b = c := by
  cases x with
  | error e => cases h
  | ok a =>
    cases h
    exact ⟨⟨a, rfl⟩, rfl⟩

theorem delivers_fresh (h : DeskKeyed s) {id : String} (gives : delivers s r = some id) :
    ¬ OutOfQueue s id ∧ OutOfQueue (deskStep r s) id := by
  cases r with
  | claim q =>
    obtain ⟨⟨c, hc⟩, rfl⟩ := toOption_map_some gives
    obtain ⟨old, session, made⟩ := Op.wp_returned (claimCommand_made q) hc
    rw [deskStep, serveDesk, Op.bind_pure_state]
    exact made.moved.dispatches h
  | transitionCommand q =>
    change (if q.status = .delivered then _ else none) = _ at gives
    split at gives
    · rename_i hstatus
      obtain ⟨⟨c, hc⟩, rfl⟩ := toOption_map_some gives
      obtain ⟨old, moved, -⟩ := Op.wp_returned (transitionCommand_moved q) hc
      rw [hstatus] at moved
      rw [deskStep, serveDesk, Op.bind_pure_state]
      exact moved.dispatches h
    · cases gives
  | setRun | createSession | transitionSession | createOrGet => cases gives

/-! ### Claims -/

/-- The approval, with its session, that a call claims. -/
def claims (s : Desk) : DeskRequest → Option (String × String)
  | .claim q => (claimCommand q s).1.toOption.bind (fun c =>
      (c.approvalId.filter (fun _ => decides c.type)).map (fun id => (q.sessionId, id)))
  | _ => none

/-- The approval of the session is not pending. -/
def NotPending (s : Desk) (place : String × String) : Prop :=
  ∃ x a, s.sessions.get place.1 = some x ∧ x.pendingApprovals.get place.2 = some a ∧ a.state ≠ "pending"

/-- A session transition that finds the record it expects sets no approval pending that was not. -/
def NoReopen (s : Desk) : DeskRequest → Prop
  | .transitionSession q => ∀ x ∈ s.sessions.get q.sessionId, x.revision = q.expectedRevision →
      x.state = q.expectedState → ∀ incoming ∈ q.changes.pendingApprovals, ∀ r ∈ x.pendingApprovals.rows,
        ∀ a ∈ incoming.get r.1, a.state = "pending" → r.2.state = "pending"
  | _ => True

theorem claims_fresh (h : DeskKeyed s) {place : String × String} (gives : claims s r = some place) :
    ¬ NotPending s place ∧ NotPending (deskStep r s) place := by
  cases r with
  | claim q =>
    simp only [claims, Option.bind_eq_some_iff, Option.map_eq_some_iff] at gives
    obtain ⟨c, hc, id, hid, rfl⟩ := gives
    have hok : (claimCommand q s).1 = .ok c := by
      cases hx : (claimCommand q s).1 with
      | error e =>
        rw [hx] at hc
        cases hc
      | ok c' =>
        rw [hx] at hc
        cases hc
        rfl
    obtain ⟨old, session, made⟩ := Op.wp_returned (claimCommand_made q) hok
    rw [made.moved.change.decision] at hid
    obtain ⟨⟨a, ha, pending⟩, sessions⟩ := made.decision id hid
    rw [reserve_sessionId, h.sessions _ session made.held] at sessions
    rw [deskStep, serveDesk, Op.bind_pure_state]
    constructor
    · rintro ⟨x, a', hx, ha', hne⟩
      cases made.held.symm.trans hx
      cases ha.symm.trans ha'
      exact hne pending
    · refine ⟨reserve session id q.commandId, { a with state := "claimed", claimedCommandId := some q.commandId }, ?_, ?_, ?_⟩
      · rw [sessions, Table.get_set_self]
      · simp only [reserve, ha, Table.get_set_self]
      · simp
  | setRun | createSession | transitionSession | createOrGet | transitionCommand => cases gives

theorem notPending_reserve {x : Session} {k commandId : String} {a : Approval} (id : String)
    (ha : x.pendingApprovals.get k = some a) (hne : a.state ≠ "pending") :
    ∃ a', (reserve x id commandId).pendingApprovals.get k = some a' ∧ a'.state ≠ "pending" := by
  unfold reserve
  split
  · exact ⟨a, ha, hne⟩
  · by_cases hk : k = id
    · subst hk
      exact ⟨_, Table.get_set_self .., by simp⟩
    · exact ⟨a, (Table.get_set_ne _ _ hk).trans ha, hne⟩

theorem notPending_step (h : DeskKeyed s) (rule : NoReopen s r) (move : DeskMove s r t) {place : String × String}
    (spent : NotPending s place) : NotPending t place := by
  obtain ⟨x, a, hx, ha, hne⟩ := spent
  cases move with
  | nothing sessions _ | submitted _ _ _ _ sessions _ | advanced _ _ _ sessions =>
    exact ⟨x, a, sessions ▸ hx, ha, hne⟩
  | opened new absent sessions _ =>
    have hid : place.1 ≠ new.sessionId := by
      intro he
      cases absent.symm.trans (he ▸ hx)
    exact ⟨x, a, by rw [sessions, Table.get_set_ne _ _ hid, hx], ha, hne⟩
  | @rewritten q _ old new found expected change sessions _ =>
    have own := h.sessions _ old found
    rw [change.sessionId, own] at sessions
    by_cases hid : place.1 = q.sessionId
    · rw [hid] at hx
      cases found.symm.trans hx
      obtain ⟨a', ha', hcase⟩ := change.approvals _ a ha
      refine ⟨new, a', by rw [sessions, hid, Table.get_set_self], ha', ?_⟩
      rcases hcase with rfl | ⟨incoming, hin, hget⟩
      · exact hne
      · exact fun hp => hne (rule x found expected.1 expected.2 incoming hin (place.2, a) (Table.mem_of_get ha) a' hget hp)
    · exact ⟨x, a, by rw [sessions, Table.get_set_ne _ _ hid, hx], ha, hne⟩
  | @claimed q _ old new session made =>
    cases hdec : old.approvalId.filter (fun _ => decides old.type) with
    | none => exact ⟨x, a, made.undecided hdec ▸ hx, ha, hne⟩
    | some id =>
      have sessions := (made.decision id hdec).2
      rw [reserve_sessionId, h.sessions _ session made.held] at sessions
      by_cases hid : place.1 = q.sessionId
      · rw [hid] at hx
        cases made.held.symm.trans hx
        obtain ⟨a', ha', hne'⟩ := notPending_reserve id ha hne
        exact ⟨_, a', by rw [sessions, hid, Table.get_set_self], ha', hne'⟩
      · exact ⟨x, a, by rw [sessions, Table.get_set_ne _ _ hid, hx], ha, hne⟩

/-! ### Runs -/

/-- The state after calls of any clients and workers, in the order they were served. -/
def deskAfter (requests : List DeskRequest) : Desk := run deskStep emptyDesk requests

theorem deskKeyed_empty : DeskKeyed emptyDesk where
  sessions k x h := by cases h
  commands k c h := by cases h
  single k k' c c' h := by cases h

theorem deskKeyed_after (requests : List DeskRequest) : DeskKeyed (deskAfter requests) :=
  run_keeps (fun s r h => deskKeyed_step h (deskStep_moves s r)) requests deskKeyed_empty

/-- What holds over a run of calls. -/
structure ApprovalsSafe (requests : List DeskRequest) : Prop where
  /-- At each moment a dedupe key of a run names one command. -/
  single : ∀ earlier later, requests = earlier ++ later → ∀ k k' c c',
    (deskAfter earlier).commands.get k = some c → (deskAfter earlier).commands.get k' = some c' →
    c.runId = c'.runId → c.dedupeKey = c'.dedupeKey → k = k'
  delivered : (emitted deskStep delivers emptyDesk requests).Nodup
  claimed : (emitted deskStep claims emptyDesk requests).Nodup
  revisions : ∀ earlier later, requests = earlier ++ later → RevisionsGrow (deskAfter earlier) (deskAfter requests)

/-- In a run whose session transitions reopen no approval, everything is claimed at most once. -/
theorem approvals_claimed_once (requests : List DeskRequest) (h : Along deskStep NoReopen emptyDesk requests) :
    ApprovalsSafe requests where
  single earlier _ _ := (deskKeyed_after earlier).single
  delivered := by
    have fresh (s : Desk) (r : DeskRequest) (id : String) (hk : DeskKeyed s) (_ : NoReopen s r)
        (gives : delivers s r = some id) : ¬ OutOfQueue s id ∧ OutOfQueue (deskStep r s) id := delivers_fresh hk gives
    exact (Along.emits_once (fun s r hk _ => deskKeyed_step hk (deskStep_moves s r)) fresh
      (fun s r _ hk _ spent => outOfQueue_step hk (deskStep_moves s r) spent) h deskKeyed_empty).1
  claimed := by
    have fresh (s : Desk) (r : DeskRequest) (place : String × String) (hk : DeskKeyed s) (_ : NoReopen s r)
        (gives : claims s r = some place) : ¬ NotPending s place ∧ NotPending (deskStep r s) place := claims_fresh hk gives
    exact (Along.emits_once (fun s r hk _ => deskKeyed_step hk (deskStep_moves s r)) fresh
      (fun s r _ hk rule spent => notPending_step hk rule (deskStep_moves s r) spent) h deskKeyed_empty).1
  revisions earlier later hreq := by
    subst hreq
    unfold deskAfter
    rw [run_append]
    exact (along_append.1 h).2.relates RevisionsGrow.refl (fun _ _ _ => .trans)
      (fun s r hk _ => deskKeyed_step hk (deskStep_moves s r))
      (fun s r hk _ => revisionsGrow_step hk (deskStep_moves s r)) (deskKeyed_after earlier)

/-! ### A session with one approval -/

def oneApproval : Table String Approval := (∅ : Table String Approval).set "a1" ⟨"h1", .instant 100, ∅, "pending", none, .null⟩

def approving (id key : String) (control : Int) : CommandInput where
  id := some id
  freshId := ""
  runId := "r1"
  status := none
  revision := none
  dedupeKey := some key
  intentHash := some "i"
  caseId := some "c1"
  sessionId := some "s1"
  type := "approve"
  approvalId := some "a1"
  requestHash := some "h1"
  expectedSessionRevision := some control
  expiresAt := .instant 50
  fields := ∅
  event := none
  now := 1

def claiming (id : String) (control : Int) : ClaimRequest := ⟨id, 1, "s1", control, "w1", 2, ∅, none⟩

/-- A client approves, and the worker claims the command. -/
def approvedOnce : List DeskRequest :=
  [.setRun "r1" ⟨"running", false⟩,
    .createSession ⟨"s1", "r1", "c1", "w1", "t1", "o1", "k1", none, none, some "active", .null, .null,
      some oneApproval, ∅, ∅⟩,
    .createOrGet (approving "m1" "d1" 1), .claim (claiming "m1" 1)]

/-- The worker writes back the approvals it read before the claim, and a second client approves. -/
def approvedTwice : List DeskRequest :=
  approvedOnce ++
    [.transitionSession ⟨"s1", 2, "active", ⟨[], none, none, none, some oneApproval, ∅⟩⟩,
      .createOrGet (approving "m2" "d2" 2), .claim (claiming "m2" 2)]

theorem noReopen_approvedOnce : Along deskStep NoReopen emptyDesk approvedOnce :=
  ⟨trivial, trivial, trivial, trivial, trivial⟩

theorem approved_once_safe : Along deskStep NoReopen emptyDesk approvedOnce ∧ ApprovalsSafe approvedOnce :=
  ⟨noReopen_approvedOnce, approvals_claimed_once approvedOnce noReopen_approvedOnce⟩

theorem approvedTwice_claims : emitted deskStep claims emptyDesk approvedTwice = [("s1", "a1"), ("s1", "a1")] := by
  decide +kernel

/-- One approval, two commands that claimed it. -/
theorem approval_claimed_twice : ¬ ∀ requests : List DeskRequest, ApprovalsSafe requests := by
  intro h
  have nodup := (h approvedTwice).claimed
  rw [approvedTwice_claims] at nodup
  revert nodup
  decide

end Motte.Storage
