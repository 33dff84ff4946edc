import Motte.Service.Rows
import Motte.Storage.RunRevisions

/-! The status of a run follows the table of transitions.

Under any interleaving of executions, cancellations, refusals, failures and
rescorings of a run, every change of its status is an edge of the table, as long
as a call that finishes the run finds it where that finish may start. The calls
check where the run is before they begin, but not when they reload it, so somebody
else may have moved it on in between. -/
namespace Motte.Service
open Foundation Storage

/-! ### Runs on either store -/

/-- What is used of a store: the methods' requests move its runs by edits. -/
structure Platform.RunLaws {σ : Type} (P : Platform σ) where
  /-- What holds of every state that is reached. -/
  Sound : σ → Prop
  served : ∀ s r, Sound s → Lawful r →
    RunsMoved r (P.runAt s) (P.runAt (P.serve r s).2) ∧ Sound (P.serve r s).2
  setCaseRuns : ∀ rows s, Sound s → P.runAt (P.setCaseRuns rows s) = P.runAt s ∧ Sound (P.setCaseRuns rows s)
  setEvents : ∀ events s, Sound s → P.runAt (P.setEvents events s) = P.runAt s ∧ Sound (P.setEvents events s)

def sqliteLaws : sqlite.RunLaws where
  Sound s := Sqlite.Columns s.toRunLog
  served s r hs _ := by
    have h : Op.wp (Sqlite.serve r) s (fun _ t => RunsMoved r s.run t.run ∧ Sqlite.Columns t.toRunLog)
        (fun _ t => RunsMoved r s.run t.run ∧ Sqlite.Columns t.toRunLog) :=
      Op.wp_mono (sqliteRuns.served s r hs trivial) (fun _ _ h => ⟨h.1.moved, h.2⟩) (fun _ _ h => ⟨.same h.1, h.2.1⟩)
    exact Op.wp_state h
  setCaseRuns _ _ hs := ⟨rfl, hs⟩
  setEvents _ _ hs := ⟨rfl, hs⟩

/-- Any request but an append and a publication, which may raise after its first write. -/
theorem memory_served {s : Memory.Store} {r : Request} (hs : KeyedRuns s.run) (rule : Memory.RunRule s r) :
    RunsMoved r s.run (Memory.serve r s).2.run ∧ KeyedRuns (Memory.serve r s).2.run := by
  have h : Op.wp (Memory.serve r) s (fun _ t => RunsMoved r s.run t.run ∧ KeyedRuns t.run)
      (fun _ t => RunsMoved r s.run t.run ∧ KeyedRuns t.run) :=
    Op.wp_mono (memoryRuns.served s r hs rule) (fun _ _ h => ⟨h.1.moved, h.2⟩) (fun _ _ h => ⟨.same h.1, h.2.1⟩)
  exact Op.wp_state h

theorem memory_append_moves (s : Memory.Store) (r : AppendRequest) :
    RunsMoved (.append r) s.run (Memory.serve (.append r) s).2.run := by
  have h : Op.wp (Memory.serve (.append r)) s (fun _ t => RunsMoved (.append r) s.run t.run)
      (fun _ t => RunsMoved (.append r) s.run t.run) := by
    simp only [Memory.serve, Memory.onAudit, Op.wp_zoom, Op.wp_bind, Op.wp_pure]
    exact Op.wp_mono (Memory.append_moves r) (fun _ _ h => h) (fun _ _ h => .same h)
  exact Op.wp_state h

def memoryLaws : memory.RunLaws where
  Sound s := KeyedRuns s.run
  served s r hs hr := by
    cases r with
    | run c => exact memory_served hs trivial
    | attempt c => exact memory_served hs trivial
    | append r => exact ⟨memory_append_moves s r, hs.moved (memory_append_moves s r) (fun _ h => nomatch h)⟩
    | job c => exact hr.elim
    | publish r => exact hr.elim
  setCaseRuns _ _ hs := ⟨rfl, hs⟩
  setEvents _ _ hs := ⟨rfl, hs⟩

section Answers
variable {σ : Type} {P : Platform σ}

/-- A call other than a request leaves the runs. -/
theorem answer_runs (L : P.RunLaws) {s : σ} (hs : L.Sound s) (o : Oracle) {q : Ask} (hq : ∀ r, q ≠ .store r) :
    P.runAt (P.answer o q s).2 = P.runAt s ∧ L.Sound (P.answer o q s).2 := by
  cases q with
  | store r => exact absurd rfl (hq r)
  | upsert row => exact L.setCaseRuns _ s hs
  | emit event =>
    simp only [Platform.answer]
    split
    · exact ⟨rfl, hs⟩
    · exact L.setEvents _ s hs
  | _ => exact ⟨rfl, hs⟩

end Answers

/-! ### Where a finish may start -/

/-- The states in which a call that finishes a run may find it. -/
def endsFrom : RunState → RunState → Bool
  | .completed, found => found = .scoring
  | .cancelled, found => found.terminal = false
  | .unsupported, found => found = .queued ∨ found = .preparing
  | .profileStale, found => found = .queued
  | .failed, found => found.terminal = false ∧ found ≠ .queued
  | .needsReview, found => found.terminal = false ∧ found ≠ .queued ∧ found ≠ .preparing
  | _, _ => false

theorem mem_transitions_of_endsFrom {final found : RunState} (h : endsFrom final found = true) :
    final ∈ found.transitions := by
  cases final <;> cases found <;> revert h <;> decide

/-- The finish named, if any, may start from the status found. -/
def mayEnd (final found : Option String) : Bool :=
  match final.bind RunState.ofName?, found.bind RunState.ofName? with
  | none, _ => true
  | some final, some found => endsFrom final found
  | some _, none => false

section Timely
variable {σ : Type} (P : Platform σ)

/-- A request that finishes a run, and finds it as it expects, finds it where the finish may start. -/
def Timely (s : σ) : Ask → Bool
  | .store (.append r) =>
    match P.runAt s r.runId with
    | some a => some a.revision = r.expectedRunRevision ∧ a.status = r.expectedRunStatus →
        mayEnd r.finalStatus a.status = true
    | none => true
  | .store (.attempt (.quarantine r)) =>
    match P.runAt s r.runId with
    | some a => a.revision = r.expectedRunRevision ∧ a.status = some r.expectedRunStatus →
        mayEnd (some "needs_review") a.status = true
    | none => true
  | _ => true

/-- The status changes along an edge of the table. -/
def FollowsTable (before after : Option String) : Prop :=
  ∃ a b : RunState, before = some a.name ∧ after = some b.name ∧ b ∈ a.transitions

def statusAt (s : σ) (runId : String) : Option String := (P.runAt s runId).bind (·.status)

end Timely

theorem followsTable_of_mayEnd {final : RunState} {found : Option String}
    (h : mayEnd (some final.name) found = true) : FollowsTable found (some final.name) := by
  unfold mayEnd at h
  rw [Option.bind_some, RunState.ofName?_name] at h
  cases hst : found.bind RunState.ofName? with
  | none =>
    rw [hst] at h
    cases h
  | some st =>
    rw [hst] at h
    obtain ⟨text, rfl, hname⟩ := Option.bind_eq_some_iff.1 hst
    exact ⟨st, final, by rw [RunState.ofName?_eq_some.1 hname], rfl, mem_transitions_of_endsFrom h⟩

/-! ### One call -/

section Call
variable {σ : Type} {P : Platform σ}

/-- A lawful update keeps the status of the run. -/
theorem update_status {r : RunUpdateRequest} {a u : Run} (h : Storage.updateRun r a = .ok u)
    (lawful : Lawful (.run (.update r))) : u.status = a.status := by
  rw [(updateRun_ok h).2]
  simp only [updateRun, except_bind_ok_iff, ensure_ok_iff, exists_const] at h
  obtain ⟨-, hstatus⟩ := h
  show r.run.status = a.status
  split at hstatus
  · rename_i status hexp
    simp only [except_bind_ok_iff, ensure_ok_iff, exists_const] at hstatus
    rcases lawful with hsame | hnone
    · rw [hstatus.1, ← hexp, hsame]
    · rw [hexp] at hnone
      cases hnone
  · simp only [except_bind_ok_iff, ensure_ok_iff, exists_const] at hstatus
    exact hstatus.1.symm

/-- What a lawful request that rewrites a run does to its status. -/
theorem edit_follows {r : Request} {k : String} {a u : Run} (h : RunEdit r k a u) (lawful : Lawful r) {s : σ}
    (ha : P.runAt s k = some a) (timely : Timely P s (.store r) = true) :
    u.status = a.status ∨ FollowsTable a.status u.status := by
  cases h with
  | update h => exact .inl (update_status h lawful)
  | transition h =>
    obtain ⟨⟨st, next, hfrom, hto, hedge⟩, -⟩ := lawful
    obtain ⟨-, hst, rfl⟩ := transitionRun_ok h
    right
    exact ⟨st, next, by rw [hst, hfrom], by rw [← hto]; rfl, hedge⟩
  | claim => exact lawful.elim
  | claimNext => exact lawful.elim
  | requeue => exact lawful.elim
  | publish => exact lawful.elim
  | quarantine hrev hst h =>
    right
    simp only [Timely, ha, decide_eq_true_eq] at timely
    rw [(nextRun_ok h).2]
    have hmay : mayEnd (some RunState.needsReview.name) a.status = true := timely ⟨hrev, hst⟩
    exact followsTable_of_mayEnd hmay
  | @append r passId _ _ hrev hst h =>
    simp only [Timely, ha, decide_eq_true_eq] at timely
    have hmay := timely ⟨hrev, hst⟩
    rw [(nextRun_ok h).2]
    show _ = a.status ∨ FollowsTable a.status _
    cases hfinal : r.finalStatus with
    | none => exact .inl rfl
    | some text =>
      obtain ⟨final, rfl⟩ := lawful.1 text hfinal
      rw [hfinal] at hmay
      have hname : final.name ≠ "" := by cases final <;> decide
      right
      simp only [RunInput.stored, storedRun]
      exact followsTable_of_mayEnd hmay

/-- A timely call changes a run's status along the table, if at all. -/
theorem answer_follows (L : P.RunLaws) {s : σ} (hs : L.Sound s) (o : Oracle) {q : Ask} (called : Called q)
    (timely : Timely P s q = true) (k : String) :
    (statusAt P (P.answer o q s).2 k = statusAt P s k ∨
      FollowsTable (statusAt P s k) (statusAt P (P.answer o q s).2 k)) ∧ L.Sound (P.answer o q s).2 := by
  by_cases hq : ∀ r, q ≠ .store r
  · obtain ⟨hruns, hsound⟩ := answer_runs L hs o hq
    exact ⟨.inl (by simp only [statusAt, hruns]), hsound⟩
  · simp only [not_forall, not_not] at hq
    obtain ⟨r, rfl⟩ := hq
    have hstate : (P.answer o (.store r) s).2 = (P.serve r s).2 := mapErr_state _ _ s
    obtain ⟨moved, hsound⟩ := L.served s r hs called
    rw [hstate]
    refine ⟨?_, hsound⟩
    rcases moved k with hsame | ⟨_, _, _, _, _, _, _, rfl⟩ | ⟨a, u, ha, hu, hedit⟩
    · exact .inl (by simp only [statusAt, hsame])
    · exact called.elim
    · simp only [statusAt, ha, hu, Option.bind_some]
      exact edit_follows hedit called ha timely

end Call

/-! ### Every interleaving -/

/-- The calls of the service that act on a run. -/
inductive ServiceCall (w : Writing) : Method View → Prop where
  | execute (runId : String) (requested : Option (List String)) : ServiceCall w (execute runId requested)
  | executeBenchmark (run : Run) : ServiceCall w (executeBenchmark run)
  | executeExternalJob (runId : String) (run : Run) : ServiceCall w (executeExternalJob w runId run)
  | cancel (runId : String) (reason : Json) : ServiceCall w (cancel runId reason)
  | markUnsupported (runId code : String) (message : Option String) :
      ServiceCall w (markUnsupported runId code message)
  | markProfileStale (runId : String) (reason : Option String) : ServiceCall w (markProfileStale runId reason)
  | failOrQuarantine (runId : String) (e : Exn) : ServiceCall w (failOrQuarantine runId e)
  | rescore (runId : String) : ServiceCall w (rescore runId)

theorem ServiceCall.asks {w : Writing} {x : Method View} (h : ServiceCall w x) : x.Asks Called := by
  cases h with
  | execute => exact called_execute _ _
  | executeBenchmark => exact called_executeBenchmark _
  | executeExternalJob => exact called_executeExternalJob _ _ _
  | cancel => exact (quiet_cancel _ _ _).called
  | markUnsupported => exact (quiet_markUnsupported _ _ _).called
  | markProfileStale => exact (quiet_markProfileStale _ _).called
  | failOrQuarantine => exact called_failOrQuarantine _ _
  | rescore => exact (steady_rescore _).quiet.called

/-- Callers of the service, and what they do. -/
abbrev Clients (σ ι : Type) := Callers σ ι Ask Answer Exn View

abbrev ClientMove (ι : Type) := Move ι Oracle Ask Answer Exn View

section System
variable {σ ι : Type} [DecidableEq ι] (P : Platform σ)

/-- One move of the clients of a store. -/
def clientStep (move : ClientMove ι) (c : Clients σ ι) : Clients σ ι := c.step P.answer move

/-- The call a move makes, if it makes one, is timely. -/
def TimelyMove (c : Clients σ ι) (move : ClientMove ι) : Prop :=
  (c.called move).all (Timely P c.state) = true

instance (c : Clients σ ι) (move : ClientMove ι) : Decidable (TimelyMove P c move) :=
  inferInstanceAs (Decidable (_ = true))

/-- Nobody is doing anything yet. -/
def idle (s : σ) : Clients σ ι := ⟨s, fun _ => .done (.error (.key ""))⟩

/-- What holds between the moves: the store is sound and every caller makes lawful requests. -/
def Orderly (L : P.RunLaws) (c : Clients σ ι) : Prop := L.Sound c.state ∧ ∀ i, (c.pending i).Asks Called

variable {P}

theorem orderly_step (L : P.RunLaws) {w : Writing} {c : Clients σ ι} {move : ClientMove ι} (h : Orderly P L c)
    (timely : TimelyMove P c move) (calls : ∀ i x, move = .start i x → ServiceCall w x) :
    Orderly P L (clientStep P move c) ∧ ∀ k, statusAt P (clientStep P move c).state k = statusAt P c.state k ∨
      FollowsTable (statusAt P c.state k) (statusAt P (clientStep P move c).state k) := by
  have hasks : ∀ i, ((clientStep P move c).pending i).Asks Called :=
    Callers.asks_step h.2 (fun i x hx => (calls i x hx).asks)
  have hstep : (c.called move = none ∧ (clientStep P move c).state = c.state) ∨ ∃ q o, c.called move = some q ∧
      (clientStep P move c).state = (P.answer o q c.state).2 := c.state_step move
  rcases hstep with ⟨-, hstate⟩ | ⟨q, o, hq, hstate⟩
  · rw [Orderly, hstate]
    exact ⟨⟨h.1, hasks⟩, fun _ => .inl rfl⟩
  · have hq' : Timely P c.state q = true := by simpa [TimelyMove, hq] using timely
    have hcall := fun k => answer_follows L h.1 o (Callers.asks_called h.2 hq) hq' k
    rw [Orderly, hstate]
    exact ⟨⟨(hcall "").2, hasks⟩, fun k => (hcall k).1⟩

theorem orderly_run (L : P.RunLaws) {w : Writing} {c : Clients σ ι} {moves : List (ClientMove ι)}
    (h : Orderly P L c) (timely : Along (clientStep P) (TimelyMove P) c moves)
    (calls : ∀ i x, .start i x ∈ moves → ServiceCall w x) : Orderly P L (run (clientStep P) c moves) := by
  induction moves generalizing c with
  | nil => exact h
  | cons move rest ih =>
    have hstep := orderly_step L h timely.1 (fun i x hx => calls i x (hx ▸ List.mem_cons_self))
    exact ih hstep.1 timely.2 (fun i x hx => calls i x (List.mem_cons_of_mem move hx))

/-- A status that has no successor stays. -/
theorem terminal_stays {before after : Option String} {st : RunState} (hst : st.terminal = true)
    (hbefore : before = some st.name) (h : after = before ∨ FollowsTable before after) : after = some st.name := by
  rcases h with hsame | ⟨a, b, ha, -, hedge⟩
  · rw [hsame, hbefore]
  · rw [hbefore] at ha
    have hsame := RunState.name_injective (Option.some.inj ha)
    rw [← hsame, (RunState.terminal_iff st).1 hst] at hedge
    cases hedge

theorem terminal_run (L : P.RunLaws) {w : Writing} {c : Clients σ ι} {moves : List (ClientMove ι)}
    (h : Orderly P L c) (timely : Along (clientStep P) (TimelyMove P) c moves)
    (calls : ∀ i x, .start i x ∈ moves → ServiceCall w x) {k : String} {st : RunState} (hst : st.terminal = true)
    (hk : statusAt P c.state k = some st.name) : statusAt P (run (clientStep P) c moves).state k = some st.name := by
  induction moves generalizing c with
  | nil => exact hk
  | cons move rest ih =>
    have hstep := orderly_step L h timely.1 (fun i x hx => calls i x (hx ▸ List.mem_cons_self))
    exact ih hstep.1 timely.2 (fun i x hx => calls i x (List.mem_cons_of_mem move hx))
      (terminal_stays hst hk (hstep.2 k))

variable (P)

/-- Along the moves every change of a status follows the table, and a terminal status stays. -/
structure StatusSafe (s : σ) (moves : List (ClientMove ι)) : Prop where
  follows : ∀ before move after, moves = before ++ move :: after → ∀ k,
    statusAt P (run (clientStep P) (idle s) (before ++ [move])).state k =
        statusAt P (run (clientStep P) (idle s) before).state k ∨
      FollowsTable (statusAt P (run (clientStep P) (idle s) before).state k)
        (statusAt P (run (clientStep P) (idle s) (before ++ [move])).state k)
  absorbing : ∀ before after, moves = before ++ after → ∀ k (st : RunState), st.terminal = true →
    statusAt P (run (clientStep P) (idle s) before).state k = some st.name →
      statusAt P (run (clientStep P) (idle s) moves).state k = some st.name

theorem statusSafe (L : P.RunLaws) {w : Writing} {s : σ} {moves : List (ClientMove ι)} (hs : L.Sound s)
    (timely : Along (clientStep P) (TimelyMove P) (idle s) moves)
    (calls : ∀ i x, .start i x ∈ moves → ServiceCall w x) : StatusSafe P s moves := by
  have hidle : Orderly P L (idle s : Clients σ ι) := ⟨hs, fun _ => trivial⟩
  constructor
  · intro before move after hsplit k
    subst hsplit
    rw [along_append] at timely
    have horderly := orderly_run L hidle timely.1 (fun i x hx => calls i x (List.mem_append_left _ hx))
    have hstep := orderly_step L horderly timely.2.1
      (fun i x hx => calls i x (List.mem_append_right _ (hx ▸ List.mem_cons_self)))
    rw [run_append]
    exact hstep.2 k
  · intro before after hsplit k st hst hk
    subst hsplit
    rw [along_append] at timely
    have horderly := orderly_run L hidle timely.1 (fun i x hx => calls i x (List.mem_append_left _ hx))
    rw [run_append]
    exact terminal_run L horderly timely.2 (fun i x hx => calls i x (List.mem_append_right _ hx)) hst hk

end System

/-- A managed benchmark without cases, waiting to be executed. -/
def benchmarkRun : RunInput where
  id := "run"
  status := some "queued"
  fields := ((∅ : Fields).insert "case_ids" (.arr [])).insert "manifest"
    (.obj [("benchmark_provenance", .obj [("suite", .str "gsm8k")])])

def benchmarkStore : Memory.Store := run Memory.step ∅ [.run (.create benchmarkRun none)]

/-- The executor has scored the run and is about to finish it. -/
def scoreExecuted : List (ClientMove Bool) := .start true (execute "run") :: List.replicate 32 (.act true {})

/-- Meanwhile the run is marked as unsupported. -/
def refuseScored : List (ClientMove Bool) :=
  .start false (markUnsupported "run" "PROVIDER_CONFIG_INVALID") ::
    List.replicate 20 (.act false {fresh := .ok "refusal"})

/-- The executor finishes the run as it found it when it reloads it. -/
def finishRefused : List (ClientMove Bool) := List.replicate 10 (.act true {fresh := .ok "scores"})

/-- A run that is cancelled before anybody executes it. -/
def cancelQueued : List (ClientMove Bool) :=
  .start false (cancel "run" .null) :: List.replicate 17 (.act false {fresh := .ok "cancel"})

def benchmarkDatabase : Sqlite.Database := run Sqlite.step ∅ [.run (.create benchmarkRun none)]

end Motte.Service
