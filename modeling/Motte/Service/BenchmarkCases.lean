import Motte.Service.Disposition
import Motte.Storage.AttemptSteps

/-! A benchmark that was stopped.

An error outside the transient classes stops a managed benchmark. The mark of the
stop is the row of the case that failed; until that row is stored the open attempt
of the case keeps every later execution from going past it. What the stop does not
reach are the cases that failed in a transient way before: they are called once
more at the end all the same. If no case waits when the stop comes, the backend
is not called again, neither by this execution nor by one that takes the run up
after a crash. -/
namespace Motte.Service
open Foundation Storage Script

/-! ### Stops -/

/-- The error is there and of no transient class. -/
def fatal (result : Json) : Bool :=
  (errorOf result).truthy && !(match isTransient (errorOf result) with
    | .ok transient => transient
    | .error _ => false)

/-- The result that a call brings: what the backend returned, the evidence of what it
raised, or the class of what it raised. -/
def produced {σ : Type} : Made σ → Option Json
  | ⟨_, .invoke _, .ok result, _⟩ => some result
  | ⟨_, .invoke _, .error e, _⟩ => if e.evidence.truthy then some e.evidence else none
  | ⟨_, .classify e, .ok errorClass, _⟩ => some (errorResult errorClass e.message)
  | _ => none

/-- The backend raised what isolates the run. -/
def quarantines {σ : Type} : Made σ → Bool
  | ⟨_, .invoke _, .error e, _⟩ => e.quarantine
  | _ => false

/-- The call brings an error that stops the run. -/
def stops {σ : Type} (e : Made σ) : Bool := quarantines e || (produced e).any fatal

/-- The call asks the backend. -/
def invokes : Ask → Bool
  | .invoke _ => true
  | _ => false

/-! ### What is used of a store -/

/-- What beginning, dispatching and completing do, and which rows the other requests write. -/
structure Platform.CaseLaws {σ : Type} (P : Platform σ) : Prop extends P.EndLaws where
  run : ∀ c s, P.caseRuns (P.serve (.run c) s).2 = P.caseRuns s
  quarantine : ∀ r s, P.caseRuns (P.serve (.attempt (.quarantine r)) s).2 = P.caseRuns s
  written : ∀ r s, RowsWritten r (P.attemptAt s) (P.caseRuns s) (P.caseRuns (P.serve (.append r) s).2)
  begun : ∀ r s, Op.wp (P.serve (.attempt (.begin r))) s (fun reply t => ∃ a, reply = .attempt a ∧
    Begun r.record a (P.attemptAt s) (P.attemptAt t) (P.caseRuns s) (P.caseRuns t)) (fun _ t => t = s)
  dispatched : ∀ r s, Op.wp (P.serve (.attempt (.dispatch r))) s (fun reply t => ∃ u, reply = .attempt u ∧
    Dispatched r u (P.attemptAt s) (P.attemptAt t) (P.caseRuns s) (P.caseRuns t)) (fun _ t => t = s)
  completed : ∀ r s, Op.wp (P.serve (.attempt (.complete r))) s (fun reply t => ∃ u, reply = .attempt u ∧
    Completed r u (P.attemptAt s) (P.attemptAt t) (P.caseRuns s) (P.caseRuns t)) (fun _ t => t = s)

theorem memoryCases : memory.CaseLaws where
  toEndLaws := memoryEnds
  run c s := by
    refine Op.wp_state (x := Memory.serve (.run c)) (Q := fun t : Memory.Store => t.caseRuns = s.caseRuns) ?_
    simp only [Memory.serve, Memory.onAudit, Memory.onRuns, Op.wp_zoom]
    exact Op.wp_always (fun _ _ => rfl) (fun _ _ => rfl)
  quarantine r s := by
    rcases (Memory.serve_served (.quarantine r) s).written with hsame | ⟨_, _, _, hc, _⟩
    · exact hsame
    · cases hc
  written r s := by
    refine Op.wp_state (x := Memory.serve (.append r)) (Q := fun t : Memory.Store =>
      RowsWritten r s.attempt s.caseRuns t.caseRuns) ?_
    simp only [Memory.serve, Memory.onAudit, Op.wp_zoom, Op.wp_bind, Op.wp_pure]
    exact Memory.append_written r
  begun r s := by
    show Op.wp (Memory.serve (.attempt (.begin r))) s _ _
    simp only [Memory.serve, Memory.serveAttempt, Memory.onAudit, Op.wp_zoom, Op.wp_bind, Op.wp_pure]
    exact Op.wp_mono (Memory.beginAttempt_begun r) (fun a _ h => ⟨a, rfl, h⟩) (fun _ _ h => by rw [h])
  dispatched r s := by
    show Op.wp (Memory.serve (.attempt (.dispatch r))) s _ _
    simp only [Memory.serve, Memory.serveAttempt, Memory.onAudit, Op.wp_zoom, Op.wp_bind, Op.wp_pure]
    exact Op.wp_mono (Memory.dispatch_dispatched r) (fun u _ h => ⟨u, rfl, h⟩) (fun _ _ h => by rw [h])
  completed r s := by
    show Op.wp (Memory.serve (.attempt (.complete r))) s _ _
    simp only [Memory.serve, Memory.serveAttempt, Memory.onAudit, Op.wp_zoom, Op.wp_bind, Op.wp_pure]
    exact Op.wp_mono (Memory.completeAttempt_completed r) (fun u _ h => ⟨u, rfl, h⟩) (fun _ _ h => by rw [h])

theorem sqlite_attemptAt (s : Sqlite.Database) : sqlite.attemptAt s = s.attempt :=
  funext (fun k => Table.get_map _ _ k)

theorem sqliteCases : sqlite.CaseLaws where
  toEndLaws := sqliteEnds
  run c s := by
    refine Op.wp_state (x := Sqlite.serve (.run c)) (Q := fun t : Sqlite.Database => t.caseRuns = s.caseRuns) ?_
    simp only [Sqlite.serve, Sqlite.onAudit, Sqlite.onRuns, Op.wp_zoom]
    exact Op.wp_always (fun _ _ => rfl) (fun _ _ => rfl)
  quarantine r s := by
    rcases (Sqlite.serve_served (.quarantine r) s).written with hsame | ⟨_, _, _, hc, _⟩
    · exact hsame
    · cases hc
  written r s := by
    rw [sqlite_attemptAt]
    refine Op.wp_state (x := Sqlite.serve (.append r)) (Q := fun t : Sqlite.Database =>
      RowsWritten r s.attempt s.caseRuns t.caseRuns) ?_
    simp only [Sqlite.serve, Sqlite.onAudit, Op.wp_zoom, Op.wp_bind, Op.wp_pure]
    exact Op.wp_mono (Sqlite.append_written r) (fun _ _ h => h) (fun _ _ h => h ▸ RowsWritten.same)
  begun r s := by
    show Op.wp (Sqlite.serve (.attempt (.begin r))) s _ _
    simp only [sqlite_attemptAt, Sqlite.serve, Sqlite.serveAttempt, Sqlite.onAudit, Op.wp_zoom, Op.wp_bind, Op.wp_pure]
    exact Op.wp_mono (Sqlite.beginAttempt_begun r) (fun a _ h => ⟨a, rfl, h⟩) (fun _ _ h => by rw [h])
  dispatched r s := by
    show Op.wp (Sqlite.serve (.attempt (.dispatch r))) s _ _
    simp only [sqlite_attemptAt, Sqlite.serve, Sqlite.serveAttempt, Sqlite.onAudit, Op.wp_zoom, Op.wp_bind, Op.wp_pure]
    exact Op.wp_mono (Sqlite.dispatch_dispatched r) (fun u _ h => ⟨u, rfl, h⟩) (fun _ _ h => by rw [h])
  completed r s := by
    show Op.wp (Sqlite.serve (.attempt (.complete r))) s _ _
    simp only [sqlite_attemptAt, Sqlite.serve, Sqlite.serveAttempt, Sqlite.onAudit, Op.wp_zoom, Op.wp_bind, Op.wp_pure]
    exact Op.wp_mono (Sqlite.completeAttempt_completed r) (fun u _ h => ⟨u, rfl, h⟩) (fun _ _ h => by rw [h])

section Stop
variable {σ : Type} (P : Platform σ) (L : P.RunLaws) (runId : String) (cases : List String)

/-! ### Where a case stands -/

/-- The case has a row. -/
def HasRow (s : σ) (caseId : String) : Prop := ∃ found, (P.caseRuns s).get (runId, caseId) = some found

/-- The case has an open attempt, as the executor begins them. -/
def OpenAt (s : σ) (caseId : String) : Prop :=
  ∃ k a, P.attemptAt s k = some a ∧ a.scope = (runId, caseId, "") ∧ a.status.isOpen = true

/-- The case was begun and has no result yet. -/
def Unsettled (s : σ) (caseId : String) : Prop := ¬HasRow P runId s caseId ∧ OpenAt P runId s caseId

/-- A row carries the mark of a stop. -/
def StopRow (s : σ) : Prop := ∃ row ∈ rowsOf (P.caseRuns s) runId, (row.fields.get "stop_run").truthy = true

/-- The first case without a row is one that was begun, or there is none. -/
def Blocked (s : σ) : Prop :=
  (∀ caseId ∈ cases, HasRow P runId s caseId) ∨ ∃ pre caseId post, cases = pre ++ caseId :: post ∧
    (∀ id ∈ pre, HasRow P runId s id) ∧ Unsettled P runId s caseId

/-- At most one case has an open attempt. -/
def Alone (s : σ) : Prop := ∀ a ∈ attemptsOf (P.attempts s) runId, ∀ b ∈ attemptsOf (P.attempts s) runId,
  a.status.isOpen = true → b.status.isOpen = true → a.caseId = b.caseId

instance (s : σ) : Decidable (Alone P runId s) := inferInstanceAs (Decidable (∀ _ ∈ _, _))

/-- Runs and rows are stored under their own ids. -/
structure Tidy (s : σ) : Prop where
  sound : L.Sound s
  runs : KeyedRuns (P.runAt s)
  keyed : Keyed (P.caseRuns s)

/-- What the others leave of a run that is being executed: they take back no row and
close no attempt, and they store no row for a case that was begun. -/
structure Leaves (s t : σ) : Prop where
  tidy : Tidy P L s → Tidy P L t
  rows : RowsKept P s t
  attempts : OpenKept (P.attemptAt s) (P.attemptAt t)
  unwritten : ∀ caseId, Unsettled P runId s caseId → ¬HasRow P runId t caseId

variable {P L runId cases}

theorem Leaves.refl (s : σ) : Leaves P L runId s s := ⟨id, RowsKept.refl s, OpenKept.refl _, fun _ h => h.1⟩

theorem OpenAt.kept {s t : σ} (h : Leaves P L runId s t) {caseId : String} (hopen : OpenAt P runId s caseId) :
    OpenAt P runId t caseId := by
  obtain ⟨k, a, ha, hscope, ho⟩ := hopen
  obtain ⟨b, hb, hsame, ho⟩ := h.attempts k a ha ho
  exact ⟨k, b, hb, (Attempt.scope_of_identity hsame).trans hscope, ho⟩

theorem HasRow.kept {s t : σ} (h : RowsKept P s t) {caseId : String} (hrow : HasRow P runId s caseId) :
    HasRow P runId t caseId := by
  obtain ⟨found, hfound⟩ := hrow
  exact ⟨found, h _ _ hfound⟩

theorem Unsettled.kept {s t : σ} (h : Leaves P L runId s t) {caseId : String} (hcase : Unsettled P runId s caseId) :
    Unsettled P runId t caseId := ⟨h.unwritten caseId hcase, hcase.2.kept h⟩

theorem StopRow.kept {s t : σ} (h : RowsKept P s t) (hstop : StopRow P runId s) : StopRow P runId t := by
  obtain ⟨row, hrow, hmark⟩ := hstop
  exact ⟨row, mem_rowsOf_kept h hrow, hmark⟩

theorem Blocked.kept {s t : σ} (h : Leaves P L runId s t) (hblocked : Blocked P runId cases s) :
    Blocked P runId cases t := by
  rcases hblocked with hall | ⟨pre, caseId, post, hcases, hpre, hcase⟩
  · exact .inl (fun caseId hid => (hall caseId hid).kept h.rows)
  · exact .inr ⟨pre, caseId, post, hcases, fun id hid => (hpre id hid).kept h.rows, hcase.kept h⟩

/-- Every case of a list has a row, or the first that has none was begun. -/
theorem first_unsettled {s : σ} {ids : List String}
    (seen : ∀ id ∈ ids, HasRow P runId s id ∨ OpenAt P runId s id) :
    (∀ id ∈ ids, HasRow P runId s id) ∨ ∃ pre caseId post, ids = pre ++ caseId :: post ∧
      (∀ id ∈ pre, HasRow P runId s id) ∧ Unsettled P runId s caseId := by
  induction ids with
  | nil => exact .inl (fun _ hid => nomatch hid)
  | cons first rest ih =>
    by_cases hfirst : HasRow P runId s first
    · rcases ih (fun id hid => seen id (List.mem_cons_of_mem _ hid)) with hall | ⟨pre, caseId, post, hrest, hpre, hcase⟩
      · exact .inl (List.forall_mem_cons.2 ⟨hfirst, hall⟩)
      · exact .inr ⟨first :: pre, caseId, post, by rw [hrest, List.cons_append],
          List.forall_mem_cons.2 ⟨hfirst, hpre⟩, hcase⟩
    · have hopen := (seen first List.mem_cons_self).resolve_left hfirst
      exact .inr ⟨[], first, rest, rfl, (fun _ hid => nomatch hid), hfirst, hopen⟩

/-- Every case up to one that was begun has a row or was begun. -/
theorem blocked_of_begun {s : σ} {pre post : List String} {caseId : String} (hcases : cases = pre ++ caseId :: post)
    (seen : ∀ id ∈ pre, HasRow P runId s id ∨ OpenAt P runId s id) (hcase : Unsettled P runId s caseId) :
    Blocked P runId cases s := by
  have seen' : ∀ id ∈ pre ++ [caseId], HasRow P runId s id ∨ OpenAt P runId s id := by
    intro id hid
    rcases List.mem_append.1 hid with hid | hid
    · exact seen id hid
    · rw [List.mem_singleton.1 hid]
      exact .inr hcase.2
  rcases first_unsettled seen' with hall | ⟨pre', first, post', hsplit, hrest⟩
  · exact absurd (hall caseId (List.mem_append_right _ List.mem_cons_self)) hcase.1
  · refine .inr ⟨pre', first, post' ++ post, ?_, hrest⟩
    calc cases = (pre ++ [caseId]) ++ post := by rw [hcases, List.append_assoc, List.singleton_append]
      _ = pre' ++ first :: (post' ++ post) := by rw [hsplit, List.append_assoc, List.cons_append]

/-! ### Calls that leave the cases alone -/

/-- The calls of the executor that neither execute a case nor store a row themselves. -/
def Calm : Ask → Prop
  | .store (.append r) => Lawful (.append r)
  | q => Quiet q

theorem Quiet.calm {q : Ask} (h : Quiet q) : Calm q := by
  unfold Calm
  split
  · exact h.1
  · exact h

theorem Calm.called {q : Ask} (h : Calm q) : Called q := by
  unfold Calm at h
  split at h
  · exact h
  · exact h.called

theorem answer_tidy (E : P.EndLaws) {q : Ask} (called : Called q) (o : Oracle) {s : σ} (h : Tidy P L s) :
    Tidy P L (P.answer o q s).2 := by
  by_cases hq : ∀ r, q ≠ .store r
  · obtain ⟨hruns, hsound⟩ := answer_runs L h.sound o hq
    refine ⟨hsound, hruns ▸ h.runs, ?_⟩
    cases q with
    | store r => exact absurd rfl (hq r)
    | upsert row =>
      show Keyed (P.caseRuns (P.setCaseRuns _ s))
      rw [E.setCaseRuns]
      exact h.keyed.upsert row
    | emit event =>
      simp only [Platform.answer]
      split
      · exact h.keyed
      · rw [E.setEvents]
        exact h.keyed
    | _ => exact h.keyed
  · simp only [not_forall, not_not] at hq
    obtain ⟨r, rfl⟩ := hq
    have hstate : (P.answer o (.store r) s).2 = (P.serve r s).2 := mapErr_state _ _ s
    obtain ⟨moved, hsound⟩ := L.served s r h.sound called
    rw [hstate]
    exact ⟨hsound, h.runs.moved moved (fun r' hr => by subst hr; exact called), E.keyed r s h.keyed⟩

/-- A calm call stores no row for a case that was begun. -/
theorem answer_unwritten (C : P.CaseLaws) {q : Ask} (h : Calm q) (o : Oracle) (s : σ) {caseId : String}
    (hcase : Unsettled P runId s caseId) : ¬HasRow P runId (P.answer o q s).2 caseId := by
  have same {t : σ} (hrows : P.caseRuns t = P.caseRuns s) : ¬HasRow P runId t caseId := by
    unfold HasRow
    rw [hrows]
    exact hcase.1
  cases q with
  | store r =>
    have hstate : (P.answer o (.store r) s).2 = (P.serve r s).2 := mapErr_state _ _ s
    rw [hstate]
    cases r with
    | run c => exact same (C.run c s)
    | attempt c => cases c with
      | quarantine r => exact same (C.quarantine r s)
      | _ => exact h.elim
    | append r =>
      rintro ⟨found, hfound⟩
      rcases C.written r s (runId, caseId) with hsame | ⟨hrun, hrows, hclosed⟩
      · exact hcase.1 ⟨found, hsame.symm.trans hfound⟩
      · obtain ⟨k, a, ha, hscope, hopen⟩ := hcase.2
        obtain ⟨hrequired, hrev⟩ := h.2.2 hrows
        rw [hclosed hrequired hrev k a ha ((congrArg (·.1) hscope).trans hrun)] at hopen
        cases hopen
    | _ => exact h.elim
  | upsert row => exact h.elim
  | emit event =>
    simp only [Platform.answer]
    split
    · exact hcase.1
    · exact same (C.setEvents _ s)
  | _ => exact hcase.1

theorem answer_leaves (C : P.CaseLaws) {q : Ask} (h : Calm q) (o : Oracle) (s : σ) :
    Leaves P L runId s (P.answer o q s).2 := by
  refine ⟨answer_tidy C.toEndLaws h.called o, answer_rows C.toRowLaws o q s, ?_, fun _ => answer_unwritten C h o s⟩
  cases q with
  | store r =>
    have hstate : (P.answer o (.store r) s).2 = (P.serve r s).2 := mapErr_state _ _ s
    rw [hstate]
    refine C.attempts r s ?_
    cases r with
    | attempt c => cases c with
      | quarantine r => trivial
      | _ => exact h.elim
    | _ => trivial
  | upsert row => exact h.elim
  | emit event =>
    simp only [Platform.answer]
    split
    · exact OpenKept.refl _
    · show OpenKept _ (fun k => (P.attempts (P.setEvents _ s)).get k)
      rw [C.setEvents_attempts]
      exact OpenKept.refl _
  | _ => exact OpenKept.refl _

/-! ### Histories -/

/-- No call of the history stopped the run. -/
def Unstopped (past : List (Made σ)) : Prop := ∀ e ∈ past, stops e = false

variable (P runId cases)

/-- A stop that came while a second case had an open attempt. -/
def Hasty (past : List (Made σ)) : Prop := ∃ e ∈ past, stops e = true ∧ ¬Alone P runId e.before

/-- The run is stopped for good: by the mark, or by an attempt that nobody gets past. -/
def Halted (s : σ) : Prop := StopRow P runId s ∨ Blocked P runId cases s

/-- What is asked of a call after the calls `past`: the backend is asked only before a
stop, and after one the run is halted. -/
def Heeds (past : List (Made σ)) (e : Made σ) : Prop :=
  Hasty P runId (past ++ [e]) ∨ ((invokes e.q = true → Unstopped past) ∧
    (Unstopped (past ++ [e]) ∨ Halted P runId cases e.after))

variable (L)

/-- Scripts whose calls heed the stops. -/
abbrev Heeding {α : Type} (x : Method α) (past : List (Made σ)) (s : σ)
    (post : Except Exn α → List (Made σ) → σ → Prop) : Prop :=
  x.Safe P.answer (Leaves P L runId) (Heeds P runId cases) post past s

/-- What every call but those on attempts and rows keeps. -/
def Lasting (J : σ → Prop) : Prop := ∀ s t, J s → Leaves P L runId s t → J t

variable {P L runId cases}

/-- The calls that ask the backend nothing. -/
def Plain : Ask → Prop
  | .invoke _ | .classify _ => False
  | _ => True

theorem Calm.plain {q : Ask} (h : Calm q) : Plain q := by
  cases q with
  | invoke caseId => exact h.elim
  | classify e => exact h.elim
  | _ => trivial

theorem stops_plain {q : Ask} (h : Plain q) (o : Oracle) (s : σ) : stops (served P.answer o q s) = false := by
  cases q with
  | invoke caseId => exact h.elim
  | classify e => exact h.elim
  | _ => rfl

theorem invokes_plain {q : Ask} (h : Plain q) : invokes q = false := by
  cases q with
  | invoke caseId => exact h.elim
  | _ => rfl

theorem Unstopped.append {past : List (Made σ)} {e : Made σ} (h : Unstopped past) (he : stops e = false) :
    Unstopped (past ++ [e]) := by
  intro e' he'
  rcases List.mem_append.1 he' with he' | he'
  · exact h e' he'
  · rw [List.mem_singleton.1 he']
    exact he

section Methods
variable {α : Type} {x : Method α} {past : List (Made σ)} {s : σ} {J : σ → Prop} {A : Prop}

/-- Nothing is asked any more once a stop was hasty. -/
theorem heeding_hasty (x : Method α) (h : Hasty P runId past) :
    Heeding P L runId cases x past s (fun _ past _ => Hasty P runId past) := by
  have grows : ∀ past (e : Made σ), Hasty P runId past → Hasty P runId (past ++ [e]) := by
    rintro past e ⟨e', he', hstop⟩
    exact ⟨e', List.mem_append_left _ he', hstop⟩
  exact (asks_always (fun _ => trivial) x).safe (P := fun _ => True) (I := fun past _ => Hasty P runId past)
    (fun _ _ _ h _ => h) (fun past s q o _ h => ⟨.inl (grows past _ h), grows past _ h⟩) h

/-- A call that asks the backend nothing. -/
theorem heeds_plain {q : Ask} (hq : Plain q) (o : Oracle) (h : Unstopped past ∨ A)
    (halted : A → Halted P runId cases (P.answer o q s).2) :
    Heeds P runId cases past (served P.answer o q s) ∧ (Unstopped (past ++ [served P.answer o q s]) ∨ A) := by
  have grown : Unstopped (past ++ [served P.answer o q s]) ∨ A := h.imp_left (fun h => h.append (stops_plain hq o s))
  refine ⟨.inr ⟨fun h => ?_, grown.imp_right halted⟩, grown⟩
  rw [show (served P.answer o q s).q = q from rfl, invokes_plain hq] at h
  cases h

/-- Before any stop nothing but the backend matters. -/
theorem heeding_plain (hx : x.Asks Plain) (h : Unstopped past) :
    Heeding P L runId cases x past s (fun _ past _ => Unstopped past) := by
  refine hx.safe (I := fun past _ => Unstopped past) (fun _ _ _ h _ => h) (fun past s q o hq h => ?_) h
  obtain ⟨hheeds, hgrown⟩ := heeds_plain (A := False) hq o (.inl h) False.elim
  exact ⟨hheeds, hgrown.resolve_right id⟩

/-- Calm calls keep what lasts; after a stop, that has to halt the run. -/
theorem heeding_calm (C : P.CaseLaws) (hx : x.Asks Calm) (lasting : Lasting P L runId J) (hj : J s)
    (h : Unstopped past ∨ A) (halts : A → ∀ t, J t → Halted P runId cases t) :
    Heeding P L runId cases x past s (fun _ past t => J t ∧ (Unstopped past ∨ A)) := by
  refine hx.safe (I := fun past t => J t ∧ (Unstopped past ∨ A)) (fun _ s t h hst => ⟨lasting s t h.1 hst, h.2⟩)
    (fun past s q o hq h => ?_) ⟨hj, h⟩
  have hj := lasting s _ h.1 (answer_leaves C hq o s)
  obtain ⟨hheeds, hgrown⟩ := heeds_plain hq.plain o h.2 (fun ha => halts ha _ hj)
  exact ⟨hheeds, hj, hgrown⟩

/-- A run that is loaded is the run that was asked for. -/
theorem heeding_load (lasting : Lasting P L runId J) (tidy : ∀ t, J t → Tidy P L t) (hj : J s)
    (h : Unstopped past ∨ A) (halts : A → ∀ t, J t → Halted P runId cases t) :
    Heeding P L runId cases (load runId) past s (fun r past t => (J t ∧ (Unstopped past ∨ A)) ∧
      ∀ run, r = .ok run → run.id = runId) := by
  have hget : Heeding P L runId cases (getRun runId) past s (fun r past t => (J t ∧ (Unstopped past ∨ A)) ∧
      ∀ run, r = .ok (some run) → run.id = runId) := by
    have hplain : Plain (.getRun runId) := trivial
    refine safe_call (q := Ask.getRun runId) (fun t hst o => ?_)
    have hj := lasting s t hj hst
    obtain ⟨hheeds, hgrown⟩ := heeds_plain (s := t) hplain o h (fun ha => halts ha _ hj)
    refine ⟨hheeds, ⟨hj, hgrown⟩, fun run hrun => ?_⟩
    exact ((tidy t hj).runs runId run (Except.ok.inj hrun)).1
  refine Safe.bind hget (fun found past t h => ?_) (fun _ _ _ h => ⟨h.1, nofun⟩)
  cases found with
  | none => exact ⟨h.1, nofun⟩
  | some run => exact ⟨h.1, fun _ hr => Except.ok.inj hr ▸ h.2 run rfl⟩

/-! ### Asking the backend -/

/-- What the backend returned or raised stops the run. -/
def halting : Except Exn Json → Bool
  | .ok result => fatal result
  | .error e => e.quarantine || (e.evidence.truthy && fatal e.evidence)

theorem stops_invoke (o : Oracle) (caseId : String) (s : σ) :
    stops (served P.answer o (.invoke caseId) s) = halting o.invoke := by
  have hanswer : (P.answer o (.invoke caseId) s).1 = o.invoke := rfl
  unfold served
  rw [hanswer]
  cases o.invoke with
  | ok result => simp [stops, quarantines, produced, halting]
  | error e =>
    by_cases hevidence : e.evidence.truthy = true <;> simp [stops, quarantines, produced, halting, hevidence]

/-- A call that may stop the run, in a state in which the run is halted anyway. -/
theorem heeds_stopping {e : Made σ} (hinvoke : invokes e.q = true → Unstopped past) (h : Unstopped past ∨ A)
    (halted : Halted P runId cases e.after) (alone : Alone P runId e.before → A) :
    Heeds P runId cases past e ∧ (Hasty P runId (past ++ [e]) ∨ (Unstopped (past ++ [e]) ∧ stops e = false) ∨
      (A ∧ (stops e = true ∨ ¬Unstopped past))) := by
  refine ⟨.inr ⟨hinvoke, .inr halted⟩, ?_⟩
  by_cases unstopped : Unstopped past
  · cases hstops : stops e with
    | false => exact .inr (.inl ⟨unstopped.append hstops, rfl⟩)
    | true =>
      by_cases halone : Alone P runId e.before
      · exact .inr (.inr ⟨alone halone, .inl rfl⟩)
      · exact .inl ⟨e, List.mem_append_right _ List.mem_cons_self, hstops, halone⟩
  · exact .inr (.inr ⟨h.resolve_left unstopped, .inr unstopped⟩)

/-- After an answer of the backend either nothing has stopped the run, or the case is the
only one that was begun. -/
theorem heeding_invoke (lasting : Lasting P L runId J) (hj : J s) (unstopped : Unstopped past)
    (halts : ∀ t, J t → Halted P runId cases t) (alone : ∀ t, J t → Alone P runId t → A) (caseId : String) :
    Heeding P L runId cases (call (.invoke caseId)) past s (fun outcome past t => Hasty P runId past ∨
      (J t ∧ ((Unstopped past ∧ halting outcome = false) ∨ (A ∧ halting outcome = true)))) := by
  refine safe_call (q := Ask.invoke caseId) (fun t hst o => ?_)
  have hj := lasting s t hj hst
  obtain ⟨hheeds, hpast⟩ := heeds_stopping (e := served P.answer o (.invoke caseId) t) (fun _ => unstopped)
    (.inl unstopped) (halts t hj) (alone t hj)
  rw [stops_invoke] at hpast
  refine ⟨hheeds, hpast.imp_right (fun h => ⟨hj, h.imp_right (fun h => ⟨h.1, ?_⟩)⟩)⟩
  exact h.2.resolve_right (fun hnot => hnot unstopped)

/-- The class of what the backend raised is known with a call of its own. -/
theorem heeding_failedResult (lasting : Lasting P L runId J) (hj : J s) {e : Exn}
    (h : (Unstopped past ∧ halting (.error e) = false) ∨ (A ∧ halting (.error e) = true))
    (halts : ∀ t, J t → Halted P runId cases t) (alone : ∀ t, J t → Alone P runId t → A) :
    Heeding P L runId cases (failedResult e) past s (fun r past t => Hasty P runId past ∨
      (J t ∧ ∀ result, r = .ok result → (Unstopped past ∧ fatal result = false) ∨
        (A ∧ (e.quarantine = true ∨ fatal result = true)))) := by
  refine safe_ite (fun hevidence => .inr ⟨hj, fun result hr => ?_⟩) (fun hevidence => ?_)
  · cases hr
    simpa [halting, hevidence, and_assoc] using h.imp_left (fun h => (⟨h.1, (Bool.or_eq_false_iff.1 h.2).2⟩ : _ ∧ _))
  · have hquarantine : halting (.error e) = e.quarantine := by simp [halting, hevidence]
    rw [hquarantine] at h
    have hclassify : Heeding P L runId cases (call (.classify e)) past s (fun r past t => Hasty P runId past ∨
        (J t ∧ ∀ errorClass, r = .ok errorClass →
          (Unstopped past ∧ fatal (errorResult errorClass e.message) = false) ∨
            (A ∧ (e.quarantine = true ∨ fatal (errorResult errorClass e.message) = true)))) := by
      refine safe_call (q := Ask.classify e) (fun t hst o => ?_)
      have hj := lasting s t hj hst
      obtain ⟨hheeds, hpast⟩ := heeds_stopping (e := served P.answer o (.classify e) t) (fun h => by cases h)
        (h.imp (·.1) (·.1)) (halts t hj) (alone t hj)
      refine ⟨hheeds, hpast.imp_right (fun hpast => ⟨hj, fun errorClass hr => ?_⟩)⟩
      have hstops : stops (served P.answer o (.classify e) t) = fatal (errorResult errorClass e.message) := by
        rw [served, show (P.answer o (.classify e) t).1 = .ok errorClass from hr]
        simp [stops, quarantines, produced]
      rw [hstops] at hpast
      refine hpast.imp_right (fun hpast => ⟨hpast.1, ?_⟩)
      rcases h with h | h
      · exact .inr (hpast.2.resolve_right (fun hnot => hnot h.1))
      · exact .inl h.2
    refine Safe.bind hclassify (fun errorClass past t h => ?_) (fun _ _ _ h => h.imp_right (fun h => ⟨h.1, fun _ hok => by cases hok⟩))
    exact h.imp_right (fun h => ⟨h.1, fun result hr => by cases hr; exact h.2 errorClass rfl⟩)

end Methods

/-! ### Cases under way -/

variable (P runId)

/-- The attempt that the executor holds for a case is stored and open. -/
def Holds (s : σ) (caseId : String) (attempt : Attempt) : Prop :=
  attempt.scope = (runId, caseId, "") ∧
    ∃ a, P.attemptAt s attempt.id = some a ∧ a.identity = attempt.identity ∧ a.status.isOpen = true

variable (L)

/-- Where the executor is: the cases `pre` have a row or were begun, those of `pending` wait. -/
structure Progressing (pre : List String) (pending : Pending) (s : σ) : Prop where
  tidy : Tidy P L s
  seen : ∀ id ∈ pre, HasRow P runId s id ∨ OpenAt P runId s id
  waiting : ∀ entry ∈ pending.rows, Holds P runId s entry.1 entry.2.1

variable {P L runId}

theorem Holds.found {s : σ} {caseId : String} {attempt : Attempt} (h : Holds P runId s caseId attempt) :
    ∃ a, P.attemptAt s attempt.id = some a ∧ a.scope = (runId, caseId, "") ∧ a.status.isOpen = true := by
  obtain ⟨hscope, a, ha, hsame, hopen⟩ := h
  exact ⟨a, ha, (Attempt.scope_of_identity hsame).trans hscope, hopen⟩

theorem Holds.openAt {s : σ} {caseId : String} {attempt : Attempt} (h : Holds P runId s caseId attempt) :
    OpenAt P runId s caseId := by
  obtain ⟨a, ha, hscope, hopen⟩ := h.found
  exact ⟨attempt.id, a, ha, hscope, hopen⟩

theorem Holds.kept {s t : σ} (h : Leaves P L runId s t) {caseId : String} {attempt : Attempt}
    (hholds : Holds P runId s caseId attempt) : Holds P runId t caseId attempt := by
  obtain ⟨hscope, a, ha, hsame, hopen⟩ := hholds
  obtain ⟨b, hb, hsame', hopen⟩ := h.attempts _ a ha hopen
  exact ⟨hscope, b, hb, hsame'.trans hsame, hopen⟩

theorem lasting_progressing (pre : List String) (pending : Pending) :
    Lasting P L runId (Progressing P L runId pre pending) := by
  intro s t h hst
  refine ⟨hst.tidy h.tidy, fun id hid => ?_, fun entry hentry => (h.waiting entry hentry).kept hst⟩
  exact (h.seen id hid).imp (fun h => h.kept hst.rows) (fun h => h.kept hst)

/-- An open attempt of a case is among those of the run. -/
theorem Holds.mem {s : σ} {caseId : String} {attempt : Attempt} (h : Holds P runId s caseId attempt) :
    ∃ a ∈ attemptsOf (P.attempts s) runId, a.status.isOpen = true ∧ a.caseId = caseId := by
  obtain ⟨a, ha, hscope, hopen⟩ := h.found
  refine ⟨a, List.mem_filter.2 ⟨List.mem_map.2 ⟨(attempt.id, a), Table.mem_of_get ha, rfl⟩, ?_⟩, hopen,
    congrArg (·.2.1) hscope⟩
  exact decide_eq_true (congrArg (·.1) hscope)

/-- If one case alone was begun, every case that waits is that case. -/
theorem Alone.waiting {s : σ} (h : Alone P runId s) {caseId : String} {attempt : Attempt}
    (hholds : Holds P runId s caseId attempt) {pending : Pending}
    (waiting : ∀ entry ∈ pending.rows, Holds P runId s entry.1 entry.2.1) :
    ∀ entry ∈ pending.rows, entry.1 = caseId := by
  intro entry hentry
  obtain ⟨a, ha, hopen, hcase⟩ := hholds.mem
  obtain ⟨b, hb, hopen', hcase'⟩ := (waiting entry hentry).mem
  exact hcase'.symm.trans ((h b hb a ha hopen' hopen).trans hcase)

/-- Completing an attempt of a case gives the case its row and leaves the other cases. -/
theorem completed_progressing {r : CompleteRequest} {u : Attempt} {s t : σ} {pre : List String} {pending : Pending}
    {caseId : String} {row : CaseRow} {attempt : Attempt} (hr : r.attemptId = attempt.id)
    (hrow : r.caseRun = some row) (hown : row.runId = runId ∧ row.caseId = caseId)
    (h : Completed r u (P.attemptAt s) (P.attemptAt t) (P.caseRuns s) (P.caseRuns t)) (tidy : Tidy P L t)
    (rows : RowsKept P s t) (hs : Progressing P L runId pre pending s) (hholds : Holds P runId s caseId attempt)
    (others : ∀ entry ∈ pending.rows, entry.1 ≠ caseId) :
    Progressing P L runId (pre ++ [caseId]) pending t ∧ row ∈ rowsOf (P.caseRuns t) runId := by
  obtain ⟨ordinal, hwritten⟩ := h.written row hrow
  rw [hown.1, hown.2] at hwritten
  obtain ⟨a, ha, hscope, -⟩ := hholds.found
  -- the attempt that was completed is the only one of its case that is held
  have other {id : String} {k : String} {b : Attempt} (hb : P.attemptAt s k = some b)
      (hbscope : b.scope = (runId, id, "")) (hid : id ≠ caseId) : P.attemptAt t k = some b := by
    rw [h.stored k, if_neg, hb]
    intro hk
    rw [hk, hr, ha] at hb
    cases hb
    exact hid (congrArg (·.2.1) (hbscope.symm.trans hscope))
  refine ⟨⟨tidy, fun id hid => ?_, fun entry hentry => ?_⟩, mem_rowsOf.2 ⟨caseId, ordinal, hwritten⟩⟩
  · by_cases hcase : id = caseId
    · rw [hcase]
      exact .inl ⟨_, hwritten⟩
    · have hid : id ∈ pre := (List.mem_append.1 hid).resolve_right (fun h => hcase (List.mem_singleton.1 h))
      rcases hs.seen id hid with hrow | ⟨k, b, hb, hbscope, hopen⟩
      · exact .inl (hrow.kept rows)
      · exact .inr ⟨k, b, other hb hbscope hcase, hbscope, hopen⟩
  · obtain ⟨hbscope, b, hb, hsame, hopen⟩ := hs.waiting entry hentry
    have hscope := (Attempt.scope_of_identity hsame).trans hbscope
    exact ⟨hbscope, b, other hb hscope (others entry hentry), hsame, hopen⟩

/-- The answer of the store to a request that raises without a trace. -/
theorem answer_store {r : Request} {ok : Reply → σ → Prop} {s : σ} (h : Op.wp (P.serve r) s ok (fun _ t => t = s))
    (o : Oracle) : (∃ reply t, P.answer o (.store r) s = (.ok reply, t) ∧ ok reply t) ∨
      ∃ e, P.answer o (.store r) s = (.error e, s) := by
  show (∃ reply t, Op.mapErr Exn.store (P.serve r) s = _ ∧ _) ∨ ∃ e, Op.mapErr Exn.store (P.serve r) s = _
  unfold Op.mapErr
  cases hserve : P.serve r s with
  | mk result t => cases result with
    | ok reply =>
      rw [Op.wp_of_ok hserve] at h
      exact .inl ⟨reply, t, rfl, h⟩
    | error e =>
      rw [Op.wp_of_error hserve] at h
      subst h
      exact .inr ⟨.store e, rfl⟩

section Cases
variable {α : Type} {past : List (Made σ)} {s : σ} {J : σ → Prop} {A : Prop} {pre : List String} {pending : Pending}
  {caseId : String} {attempt : Attempt}

theorem calm_now : now.Asks Calm := asks_call trivial

/-- A case whose attempt the executor holds, with what it knows besides. -/
def Held (P : Platform σ) (L : P.RunLaws) (runId : String) (pre : List String) (pending : Pending) (caseId : String)
    (attempt : Attempt) (J : σ → Prop) (s : σ) : Prop :=
  Progressing P L runId pre pending s ∧ Holds P runId s caseId attempt ∧ J s

theorem lasting_held (lasting : Lasting P L runId J) :
    Lasting P L runId (Held P L runId pre pending caseId attempt J) :=
  fun s t h hst => ⟨lasting_progressing pre pending s t h.1 hst, h.2.1.kept hst, lasting s t h.2.2 hst⟩

/-- Completing an attempt stores the row, or raises and changes nothing. -/
theorem heeding_complete (C : P.CaseLaws) (lasting : Lasting P L runId J) {r : CompleteRequest} {row : CaseRow}
    (hr : r.attemptId = attempt.id) (hrow : r.caseRun = some row) (hown : row.runId = runId ∧ row.caseId = caseId)
    (hs : Held P L runId pre pending caseId attempt J s) (others : ∀ entry ∈ pending.rows, entry.1 ≠ caseId)
    (h : Unstopped past ∨ A) (halts : A → ∀ t, Held P L runId pre pending caseId attempt J t → Halted P runId cases t)
    (halts' : A → ∀ t, Progressing P L runId (pre ++ [caseId]) pending t → row ∈ rowsOf (P.caseRuns t) runId →
      Halted P runId cases t) :
    Heeding P L runId cases (change (.attempt (.complete r))) past s (fun result past t =>
      (Unstopped past ∨ A) ∧ (result = .ok () → Progressing P L runId (pre ++ [caseId]) pending t ∧
        row ∈ rowsOf (P.caseRuns t) runId)) := by
  have hplain : Plain (.store (.attempt (.complete r))) := trivial
  have hcall : Heeding P L runId cases (call (.store (.attempt (.complete r)))) past s (fun result past t =>
      (Unstopped past ∨ A) ∧ (∀ reply, result = .ok reply → Progressing P L runId (pre ++ [caseId]) pending t ∧
        row ∈ rowsOf (P.caseRuns t) runId)) := by
    refine safe_call (fun t hst o => ?_)
    have ht := lasting_held lasting s t hs hst
    have tidy := answer_tidy C.toEndLaws (q := .store (.attempt (.complete r))) trivial o ht.1.tidy
    have rows := answer_rows C.toRowLaws o (.store (.attempt (.complete r))) t
    rcases answer_store (C.completed r t) o with ⟨reply, u, hanswer, a, -, hcompleted⟩ | ⟨e, hanswer⟩
    · rw [hanswer] at tidy rows
      have hdone := completed_progressing hr hrow hown hcompleted tidy rows ht.1 ht.2.1 others
      obtain ⟨hheeds, hgrown⟩ := heeds_plain (s := t) hplain o h
        (fun ha => by rw [hanswer]; exact halts' ha u hdone.1 hdone.2)
      rw [hanswer]
      exact ⟨hheeds, hgrown, fun _ _ => hdone⟩
    · obtain ⟨hheeds, hgrown⟩ := heeds_plain (s := t) hplain o h (fun ha => by rw [hanswer]; exact halts ha t ht)
      rw [hanswer]
      exact ⟨hheeds, hgrown, fun _ hr => by cases hr⟩
  exact Safe.bind hcall (fun reply _ _ h => ⟨h.1, fun _ => h.2 reply rfl⟩) (fun _ _ _ h => ⟨h.1, nofun⟩)

theorem heeding_completeOpenAttempt (C : P.CaseLaws) (lasting : Lasting P L runId J) {row : CaseRow}
    {failed emitEvent : Bool} (hown : row.runId = runId ∧ row.caseId = caseId)
    (hs : Held P L runId pre pending caseId attempt J s) (others : ∀ entry ∈ pending.rows, entry.1 ≠ caseId)
    (h : Unstopped past ∨ A) (halts : A → ∀ t, Held P L runId pre pending caseId attempt J t → Halted P runId cases t)
    (halts' : A → ∀ t, Progressing P L runId (pre ++ [caseId]) pending t → row ∈ rowsOf (P.caseRuns t) runId →
      Halted P runId cases t) :
    Heeding P L runId cases (completeOpenAttempt attempt row failed emitEvent) past s (fun r past t =>
      (Unstopped past ∨ A) ∧ (r = .ok () → Progressing P L runId (pre ++ [caseId]) pending t ∧
        row ∈ rowsOf (P.caseRuns t) runId)) := by
  refine Safe.bind (heeding_calm C calm_now (lasting_held lasting) hs h halts) (fun now past s hs => ?_)
    (fun _ _ _ h => ⟨h.2, nofun⟩)
  exact heeding_complete C lasting rfl rfl hown hs.1 others hs.2 halts halts'

/-! ### Beginning a case -/

theorem begun_leaves {r : AttemptInput} {a : Attempt} {t : σ}
    (h : Begun r a (P.attemptAt s) (P.attemptAt t) (P.caseRuns s) (P.caseRuns t)) (tidy : Tidy P L s → Tidy P L t) :
    Leaves P L runId s t := by
  refine ⟨tidy, by rw [RowsKept, h.rows]; exact ResultsKept.refl _, fun k b hb hopen => ?_, fun id hid => ?_⟩
  · have hk : k ≠ a.id := by
      rintro rfl
      exact (by cases h.fresh.symm.trans hb)
    exact ⟨b, by rw [h.added, if_neg hk, hb], rfl, hopen⟩
  · unfold HasRow
    rw [h.rows]
    exact hid.1

theorem dispatched_leaves {r : DispatchRequest} {u : Attempt} {t : σ}
    (h : Dispatched r u (P.attemptAt s) (P.attemptAt t) (P.caseRuns s) (P.caseRuns t))
    (tidy : Tidy P L s → Tidy P L t) : Leaves P L runId s t := by
  refine ⟨tidy, by rw [RowsKept, h.rows]; exact ResultsKept.refl _, fun k b hb hopen => ?_, fun id hid => ?_⟩
  · rw [h.stored]
    split
    · rename_i hk
      obtain ⟨a, ha, hsame⟩ := h.found
      rw [hk, ha] at hb
      cases hb
      exact ⟨u, rfl, hsame, h.opened⟩
    · exact ⟨b, hb, rfl, hopen⟩
  · unfold HasRow
    rw [h.rows]
    exact hid.1

/-- A request on one attempt, whose reply is the attempt. -/
theorem heeding_attemptCommand (C : P.CaseLaws) {c : AttemptCommand} {spec : Attempt → σ → σ → Prop}
    (hc : ∀ t, Op.wp (P.serve (.attempt c)) t (fun reply u => ∃ a, reply = .attempt a ∧ spec a t u) (fun _ u => u = t))
    (called : Called (.store (.attempt c))) (h : Unstopped past) :
    Heeding P L runId cases (attemptCommand c) past s (fun r past u => Unstopped past ∧
      ∀ a, r = .ok a → ∃ t, Leaves P L runId s t ∧ spec a t u ∧ (Tidy P L t → Tidy P L u)) := by
  have hplain : Plain (.store (.attempt c)) := trivial
  have hcall : Heeding P L runId cases (call (.store (.attempt c))) past s (fun r past u => Unstopped past ∧
      ∀ reply, r = .ok reply → ∃ a t, reply = Reply.attempt a ∧ Leaves P L runId s t ∧ spec a t u ∧
        (Tidy P L t → Tidy P L u)) := by
    refine safe_call (fun t hst o => ?_)
    have hheeds : Heeds P runId cases past _ ∧ _ := heeds_plain (A := False) (s := t) hplain o (.inl h) False.elim
    refine ⟨hheeds.1, hheeds.2.resolve_right id, fun reply hr => ?_⟩
    have tidy : Tidy P L t → Tidy P L _ := answer_tidy C.toEndLaws called o
    rcases answer_store (hc t) o with ⟨reply', u, hanswer, a, hreply, hspec⟩ | ⟨e, hanswer⟩
    · rw [hanswer] at hr tidy ⊢
      cases hr
      exact ⟨a, t, hreply, hst, hspec, tidy⟩
    · rw [hanswer] at hr
      cases hr
  refine Safe.bind hcall (fun reply past u h => ?_) (fun _ _ _ h => ⟨h.1, nofun⟩)
  obtain ⟨a, t, rfl, hst, hspec, tidy⟩ := h.2 reply rfl
  refine ⟨h.1, fun b hb => ?_⟩
  cases hb
  exact ⟨t, hst, hspec, tidy⟩

/-- Calm calls before any stop. -/
theorem heeding_unstopped (C : P.CaseLaws) {x : Method α} (hx : x.Asks Calm) (lasting : Lasting P L runId J) (hj : J s)
    (h : Unstopped past) : Heeding P L runId cases x past s (fun _ past t => J t ∧ Unstopped past) :=
  (heeding_calm (A := False) C hx lasting hj (.inl h) False.elim).mono (fun _ _ _ h => ⟨h.1, h.2.resolve_right id⟩)

theorem calm_attemptsOfRun (runId : String) : (attemptsOfRun runId).Asks Calm := asks_call trivial

theorem calm_fresh : fresh.Asks Calm := asks_call trivial

/-- The case has no row; nobody stores one while its attempt is open. -/
theorem lasting_unsettled : Lasting P L runId (fun s => Unsettled P runId s caseId) := fun _ _ h hst => h.kept hst

/-- A case is begun without a row, and its attempt is held from then on. -/
theorem heeding_beginCaseAttempt (C : P.CaseLaws) {current : Run} (hcurrent : current.id = runId)
    (hs : Progressing P L runId pre pending s) (h : Unstopped past) :
    Heeding P L runId cases (beginCaseAttempt current caseId) past s (fun r past t => Unstopped past ∧
      ∀ attempt, r = .ok attempt → Held P L runId pre pending caseId attempt (Unsettled P runId · caseId) t ∧
        ∀ entry ∈ pending.rows, entry.1 ≠ caseId) := by
  have lasting : Lasting P L runId (Progressing P L runId pre pending) := lasting_progressing pre pending
  refine Safe.bind (heeding_unstopped C (calm_attemptsOfRun current.id) lasting hs h) (fun attempts past s h => ?_)
    (fun _ _ _ h => ⟨h.2, nofun⟩)
  refine Safe.bind (heeding_unstopped C calm_now lasting h.1 h.2) (fun now past s h => ?_) (fun _ _ _ h => ⟨h.2, nofun⟩)
  refine Safe.bind (heeding_unstopped C calm_fresh lasting h.1 h.2) (fun unique past s h => ?_)
    (fun _ _ _ h => ⟨h.2, nofun⟩)
  refine safe_lift_bind (fun found _ => ?_) (fun _ _ => ⟨h.2, nofun⟩)
  refine Safe.bind (heeding_attemptCommand C (C.begun _) trivial h.2) (fun attempt past u hbegun => ?_)
    (fun _ _ _ h => ⟨h.1, nofun⟩)
  obtain ⟨t, hst, hbegun', tidy⟩ := hbegun.2 attempt rfl
  have hscope : attempt.scope = (runId, caseId, "") := by
    rw [← hcurrent]
    exact hbegun'.scope
  have hu : Held P L runId pre pending caseId attempt (Unsettled P runId · caseId) u := by
    have hheld : Holds P runId u caseId attempt :=
      ⟨hscope, attempt, by rw [hbegun'.added, if_pos rfl], rfl, hbegun'.opened⟩
    refine ⟨lasting _ _ (lasting _ _ h.1 hst) (begun_leaves hbegun' tidy), hheld, ?_, hheld.openAt⟩
    have hunwritten := hbegun'.unwritten (congrArg (·.2.2) hscope)
    rw [show (attempt.runId, attempt.caseId) = (runId, caseId) from
      Prod.ext (congrArg (·.1) hscope) (congrArg (·.2.1) hscope)] at hunwritten
    rintro ⟨found, hfound⟩
    rw [hbegun'.rows, hunwritten] at hfound
    cases hfound
  have others : ∀ entry ∈ pending.rows, entry.1 ≠ caseId := by
    intro entry hentry hcase
    obtain ⟨a, ha, hascope, hopen⟩ := ((lasting _ _ h.1 hst).waiting entry hentry).found
    rw [hbegun'.unblocked _ a ha (by rw [hascope, hcase, hscope])] at hopen
    cases hopen
  have hlasting : Lasting P L runId (Held P L runId pre pending caseId attempt (Unsettled P runId · caseId)) :=
    lasting_held lasting_unsettled
  refine Safe.bind (heeding_unstopped C calm_now hlasting hu hbegun.1) (fun dispatchedAt past s hs => ?_)
    (fun _ _ _ h => ⟨h.2, nofun⟩)
  refine Safe.handle (heeding_attemptCommand C (C.dispatched _) trivial hs.2) (fun dispatched past u h => ?_)
    (fun e past u h => ?_)
  · refine ⟨h.1, fun _ hr => ?_⟩
    cases hr
    obtain ⟨t, hst, hdispatched, tidy⟩ := h.2 dispatched rfl
    have ht := hlasting _ _ hs.1 hst
    have hu := hlasting _ _ ht (dispatched_leaves hdispatched tidy)
    obtain ⟨a, ha, hsame⟩ := hdispatched.found
    obtain ⟨-, a', ha', hsame', -⟩ := ht.2.1
    cases ha.symm.trans ha'
    have hidentity : dispatched.identity = attempt.identity := hsame.trans hsame'
    have hid : dispatched.id = attempt.id := congrArg (·.1) hidentity
    refine ⟨⟨hu.1, ⟨(Attempt.scope_of_identity hidentity).trans hscope, dispatched, ?_, rfl, hdispatched.opened⟩,
      hu.2.2⟩, others⟩
    rw [hdispatched.stored, if_pos hid]
  · refine safe_ite (fun _ => ?_) (fun _ => ⟨h.1, nofun⟩)
    refine Safe.bind (heeding_plain (asks_call trivial) h.1) (fun current past s h => ?_) (fun _ _ _ h => ⟨h, nofun⟩)
    cases current with
    | none => exact ⟨h, nofun⟩
    | some current =>
      refine safe_ite (fun _ => ?_) (fun _ => ⟨h, nofun⟩)
      refine Safe.bind (heeding_plain (asks_call trivial) h) (fun now past s h => ?_) (fun _ _ _ h => ⟨h, nofun⟩)
      exact Safe.bind (heeding_plain (asks_change trivial) h) (fun _ _ _ h => ⟨h, nofun⟩) (fun _ _ _ h => ⟨h, nofun⟩)

/-- A case that was begun before is not begun again. -/
theorem heeding_beginCaseAttempt_open (C : P.CaseLaws) {current : Run} (hcurrent : current.id = runId)
    (lasting : Lasting P L runId J) (hj : J s) (opened : ∀ t, J t → OpenAt P runId t caseId) (h : Unstopped past ∨ A)
    (halts : A → ∀ t, J t → Halted P runId cases t) :
    Heeding P L runId cases (beginCaseAttempt current caseId) past s (fun r past t => (J t ∧ (Unstopped past ∨ A)) ∧
      ∀ attempt, r ≠ .ok attempt) := by
  refine Safe.bind (heeding_calm C (calm_attemptsOfRun current.id) lasting hj h halts) (fun attempts past s h => ?_)
    (fun _ _ _ h => ⟨h, nofun⟩)
  refine Safe.bind (heeding_calm C calm_now lasting h.1 h.2 halts) (fun now past s h => ?_) (fun _ _ _ h => ⟨h, nofun⟩)
  refine Safe.bind (heeding_calm C calm_fresh lasting h.1 h.2 halts) (fun unique past s h => ?_)
    (fun _ _ _ h => ⟨h, nofun⟩)
  refine safe_lift_bind (fun found _ => ?_) (fun _ _ => ⟨h, nofun⟩)
  generalize hr : ({ record := _, expectedRunRevision := _, expectedRunStatus := _ } : BeginAttemptRequest) = r
  have hscope : (r.record.runId, r.record.caseId, r.record.trialId.getD "") = (runId, caseId, "") := by
    rw [← hr, ← hcurrent]
    rfl
  have hrefused : Heeding P L runId cases (call (.store (.attempt (.begin r)))) past s (fun result past t =>
      (J t ∧ (Unstopped past ∨ A)) ∧ ∀ reply, result ≠ .ok reply) := by
    refine safe_call (fun t hst o => ?_)
    have hj := lasting s t h.1 hst
    have hplain : Plain (.store (.attempt (.begin r))) := trivial
    rcases answer_store (C.begun r t) o with ⟨reply, u, -, a, -, hbegun⟩ | ⟨e, hanswer⟩
    · obtain ⟨k, b, hb, hbscope, hopen⟩ := opened t hj
      have hclosed := hbegun.unblocked k b hb (hbscope.trans (hscope.symm.trans hbegun.scope.symm))
      rw [hopen] at hclosed
      cases hclosed
    · have hheeds : Heeds P runId cases past _ ∧ _ := heeds_plain (s := t) hplain o h.2
        (fun ha => by rw [hanswer]; exact halts ha t hj)
      rw [hanswer]
      exact ⟨hheeds.1, ⟨hj, hheeds.2⟩, fun _ hr => by cases hr⟩
  have hcommand : Heeding P L runId cases (attemptCommand (.begin r)) past s (fun result past t =>
      (J t ∧ (Unstopped past ∨ A)) ∧ ∀ attempt, result ≠ .ok attempt) :=
    Safe.bind hrefused (fun reply _ _ h => absurd rfl (h.2 reply)) (fun _ _ _ h => ⟨h.1, nofun⟩)
  exact Safe.bind hcommand (fun attempt _ _ h => absurd rfl (h.2 attempt)) (fun _ _ _ h => ⟨h.1, nofun⟩)

/-! ### Checkpoints -/

theorem calm_honorCancellation (runId : String) : (honorCancellation runId).Asks Calm :=
  (quiet_honorCancellation runId).mono (fun _ => Quiet.calm)

theorem calm_load (runId : String) : (load runId).Asks Calm := asks_load runId trivial

/-- The checkpoint when no case waits. -/
theorem heeding_cancelCheckpoint_empty (C : P.CaseLaws) (lasting : Lasting P L runId J) (hj : J s)
    (h : Unstopped past ∨ A) (halts : A → ∀ t, J t → Halted P runId cases t) :
    Heeding P L runId cases (cancelCheckpoint runId ∅) past s (fun r past t => (J t ∧ (Unstopped past ∨ A)) ∧
      ∀ pending cancelled, r = .ok (pending, cancelled) → pending = ∅) := by
  refine Safe.bind (heeding_calm C (calm_honorCancellation runId) lasting hj h halts) (fun cancelled _ _ h => ?_)
    (fun _ _ _ h => ⟨h, nofun⟩)
  exact ⟨h, fun _ _ hr => by cases hr; rfl⟩

theorem Progressing.subset {ids : List String} (h : Progressing P L runId pre pending s) (hids : ids ⊆ pre) :
    Progressing P L runId ids pending s := ⟨h.tidy, fun id hid => h.seen id (hids hid), h.waiting⟩

theorem lasting_true : Lasting P L runId (fun _ => True) := fun _ _ _ _ => trivial

/-- The waiting cases get their first error as their result. -/
theorem heeding_settlePending (C : P.CaseLaws) (rows : List (String × Attempt × Json))
    (distinct : (rows.map Prod.fst).Nodup) (hs : Progressing P L runId pre ⟨rows, distinct⟩ s) (h : Unstopped past) :
    Heeding P L runId cases (settlePending runId rows) past s (fun r past t => Unstopped past ∧
      (r = .ok () → Progressing P L runId pre ∅ t)) := by
  induction rows generalizing past s with
  | nil => exact ⟨h, fun _ => hs⟩
  | cons entry rest ih =>
    obtain ⟨caseId, attempt, result⟩ := entry
    obtain ⟨hnew, distinct'⟩ := List.nodup_cons.1 distinct
    have hrest : Progressing P L runId pre ⟨rest, distinct'⟩ s :=
      ⟨hs.tidy, hs.seen, fun entry hentry => hs.waiting entry (List.mem_cons_of_mem _ hentry)⟩
    have others : ∀ entry ∈ rest, entry.1 ≠ caseId := by
      intro entry hentry hcase
      exact hnew (List.mem_map.2 ⟨entry, hentry, hcase⟩)
    have hcomplete : Heeding P L runId cases (completeOpenAttempt attempt (stopRow runId caseId result false) true false)
        past s (fun r past t => (Unstopped past ∨ False) ∧ (r = .ok () →
          Progressing P L runId (pre ++ [caseId]) ⟨rest, distinct'⟩ t ∧ _)) :=
      heeding_completeOpenAttempt C lasting_true ⟨rfl, rfl⟩
        ⟨hrest, hs.waiting _ List.mem_cons_self, trivial⟩ others (.inl h) False.elim False.elim
    refine Safe.bind hcomplete (fun _ past t h => ?_) (fun _ _ _ h => ⟨h.1.resolve_right id, nofun⟩)
    exact ih distinct' ((h.2 rfl).1.subset (List.subset_append_left _ _)) (h.1.resolve_right id)

/-- The checkpoint before any stop: the cases still wait, or all were settled. -/
theorem heeding_cancelCheckpoint (C : P.CaseLaws) (hs : Progressing P L runId pre pending s) (h : Unstopped past) :
    Heeding P L runId cases (cancelCheckpoint runId pending) past s (fun r past t => Unstopped past ∧
      ∀ pending' cancelled, r = .ok (pending', cancelled) → (pending' = pending ∨ pending' = ∅) ∧
        Progressing P L runId pre pending' t) := by
  have lasting : Lasting P L runId (Progressing P L runId pre pending) := lasting_progressing pre pending
  refine safe_ite (fun _ => ?_) (fun _ => ?_)
  · refine Safe.bind (heeding_unstopped C (calm_honorCancellation runId) lasting hs h) (fun cancelled _ _ h => ?_)
      (fun _ _ _ h => ⟨h.2, nofun⟩)
    refine ⟨h.2, fun _ _ hr => ?_⟩
    cases hr
    exact ⟨.inl rfl, h.1⟩
  · refine Safe.bind (heeding_unstopped C (calm_load runId) lasting hs h) (fun run past s h => ?_)
      (fun _ _ _ h => ⟨h.2, nofun⟩)
    refine safe_ite (fun _ => ?_) (fun _ => ?_)
    · refine Safe.bind (heeding_unstopped C (calm_load runId) lasting h.1 h.2) (fun _ past s h => ?_)
        (fun _ _ _ h => ⟨h.2, nofun⟩)
      refine Safe.bind (heeding_settlePending C pending.rows pending.nodup h.1 h.2) (fun _ past s h => ?_)
        (fun _ _ _ h => ⟨h.1, nofun⟩)
      refine Safe.bind (heeding_unstopped C (calm_honorCancellation runId) (lasting_progressing pre ∅) (h.2 rfl) h.1)
        (fun cancelled _ _ h => ?_) (fun _ _ _ h => ⟨h.2, nofun⟩)
      refine ⟨h.2, fun _ _ hr => ?_⟩
      cases hr
      exact ⟨.inr rfl, h.1⟩
    · refine Safe.bind (heeding_unstopped C (calm_honorCancellation runId) lasting h.1 h.2) (fun cancelled _ _ h => ?_)
        (fun _ _ _ h => ⟨h.2, nofun⟩)
      refine ⟨h.2, fun _ _ hr => ?_⟩
      cases hr
      exact ⟨.inl rfl, h.1⟩

/-! ### One case of the main loop -/

theorem fatal_of_transient {result : Json} (h : isTransient (errorOf result) = .ok true) : fatal result = false := by
  simp [fatal, h]

theorem truthy_of_fatal {result : Json} (h : fatal result = true) : (errorOf result).truthy = true :=
  (Bool.and_eq_true_iff.1 h).1

/-- An error that is not fatal is transient. -/
theorem transient_of_not_fatal {result : Json} {transient : Bool} (h : isTransient (errorOf result) = .ok transient)
    (hfatal : fatal result = false) (herror : (errorOf result).truthy = true) : transient = true := by
  simpa [fatal, h, herror] using hfatal

/-- How the main loop goes on after a case: nothing has stopped the run, or the mark is stored
and no case waits. -/
def GoesOn (P : Platform σ) (L : P.RunLaws) (runId : String) (run : Run) (pre : List String) (stop : Bool)
    (pending : Pending) (past : List (Made σ)) (s : σ) : Prop :=
  (stop = false ∧ Unstopped past ∧ Progressing P L runId pre pending s ∧
    (allowsSecondChance run = false → pending = ∅)) ∨
  (stop = true ∧ pending = ∅ ∧ StopRow P runId s ∧ Tidy P L s)

theorem stopRow_of_mem {result : Json} (h : stopRow runId caseId result true ∈ rowsOf (P.caseRuns s) runId) :
    StopRow P runId s := by
  refine ⟨_, h, ?_⟩
  rw [stopRow, Fields.get, Finmap.lookup_insert]
  rfl

theorem heeding_conclude (C : P.CaseLaws) {run : Run} (hrun : run.id = runId) {result : Json}
    (halts : ∀ t, Held P L runId pre pending caseId attempt (Unsettled P runId · caseId) t → Halted P runId cases t)
    (hs : Held P L runId pre pending caseId attempt (Unsettled P runId · caseId) s)
    (others : ∀ entry ∈ pending.rows, entry.1 ≠ caseId) (hsecond : allowsSecondChance run = false → pending = ∅)
    (h : (Unstopped past ∧ fatal result = false) ∨ (pending = ∅ ∧ fatal result = true)) :
    Heeding P L runId cases (benchmarkCase.conclude run caseId attempt pending result) past s (fun r past t =>
      ∀ stop pending', r = .ok (.goesOn (stop, pending')) →
        GoesOn P L runId run (pre ++ [caseId]) stop pending' past t) := by
  have hlasting : Lasting P L runId (Held P L runId pre pending caseId attempt (Unsettled P runId · caseId)) :=
    lasting_held lasting_unsettled
  refine safe_lift_bind (fun transient htransient => ?_) (fun _ _ => nofun)
  refine safe_ite (fun hagain => ?_) (fun hagain => ?_)
  · have hfatal : fatal result = false := fatal_of_transient (hagain.1 ▸ htransient)
    have unstopped : Unstopped past := (h.resolve_right (fun h => by rw [hfatal] at h; exact nomatch h.2)).1
    refine Safe.bind (heeding_unstopped C (asks_call trivial) hlasting hs unstopped) (fun _ past t h => ?_)
      (fun _ _ _ _ => nofun)
    intro stop pending' hr
    cases hr
    refine .inl ⟨rfl, h.2, ⟨h.1.1.tidy, fun id hid => ?_, fun entry hentry => ?_⟩, fun hno => ?_⟩
    · rcases List.mem_append.1 hid with hid | hid
      · exact h.1.1.seen id hid
      · rw [List.mem_singleton.1 hid]
        exact .inr h.1.2.1.openAt
    · have hget := Table.get_of_mem hentry
      rw [Table.get_set] at hget
      split at hget
      · rename_i hcase
        rw [hcase, ← Option.some.inj hget]
        exact h.1.2.1
      · exact h.1.1.waiting entry (Table.mem_of_get hget)
    · exact absurd hagain.2 (by simp [hno])
  · refine Safe.bind (heeding_completeOpenAttempt C lasting_unsettled ⟨hrun, rfl⟩ hs others (h.imp_left (·.1))
      (fun _ => halts) ?_) (fun _ past t h' => ?_) (fun _ _ _ _ => nofun)
    · intro hstop t _ hrow
      rw [truthy_of_fatal hstop.2, hrun] at hrow
      exact .inl (stopRow_of_mem hrow)
    · obtain ⟨hpast, hdone⟩ := h'
      obtain ⟨hprogress, hrow⟩ := hdone rfl
      intro stop pending' hr
      cases hr
      cases herror : (errorOf result).truthy with
      | true =>
        rw [herror, hrun] at hrow
        refine .inr ⟨rfl, ?_, stopRow_of_mem hrow, hprogress.tidy⟩
        rcases h with h | h
        · have htrue := transient_of_not_fatal htransient h.2 herror
          exact hsecond (by simpa [htrue] using hagain)
        · exact h.1
      | false =>
        have hfatal : fatal result ≠ true := fun h => by rw [truthy_of_fatal h] at herror; cases herror
        exact .inl ⟨rfl, hpast.resolve_right (fun h => hfatal h.2), hprogress, hsecond⟩

end Cases

end Stop
end Motte.Service
