import Motte.Service.JobCompletion
import Motte.Service.StatusTable
import Motte.Storage.Terminal

/-! Every selected case of an external job keeps a disposition.

Whoever ends a run by a scoring pass sees to the rows of its selected cases: the
executor stores them before it scores, and the others bring a row for each case
that has none, in the append that ends the run. A run that is ended by a bare
change of status gets no rows; that is what a failure does to a run that is not of
trials, and a cancellation or a refusal to a run without benchmark provenance. -/
namespace Motte.Service
open Foundation Storage Script

/-! ### Ended runs -/

/-- The statuses in which every selected case has to have its row. -/
def disposedStates : List RunState := [.completed, .failed, .cancelled, .unsupported]

def disposed (status : Option String) : Bool := disposedStates.any (fun st => status = some st.name)

/-- The selected cases of a run are those of its fields. -/
theorem caseIds_congr {a b : Run} (h : a.fields.get "case_ids" = b.fields.get "case_ids") : caseIds a = caseIds b := by
  unfold caseIds
  rw [h]

theorem KeepsSelection.caseIds_merge {changes fields : Fields} (h : KeepsSelection changes) :
    (fields.merge changes).get "case_ids" = fields.get "case_ids" := by
  rw [Fields.get, Fields.get, Fields.merge, Finmap.lookup_union_right (Finmap.lookup_eq_none.1 h.1)]

/-- The request would leave these cases selected, if it rewrites the run as a whole. -/
def Selects (cases : List String) : Request → Prop
  | .run (.update r) => ∀ revision, caseIds (r.run.stored revision) = cases
  | _ => True

/-- The request closes no attempt. -/
def ClosesNothing : Request → Prop
  | .attempt (.quarantine _) => True
  | .attempt _ => False
  | _ => True

section Edits
variable {r : Request} {k : String} {a u : Run}

theorem edit_caseIds (h : RunEdit r k a u) (lawful : Lawful r) (selects : Selects (caseIds a) r) :
    caseIds u = caseIds a := by
  cases h with
  | update h =>
    rw [(updateRun_ok h).2]
    exact selects _
  | transition h =>
    obtain ⟨-, -, rfl⟩ := transitionRun_ok h
    exact caseIds_congr lawful.2.caseIds_merge
  | quarantine _ _ h =>
    rw [(nextRun_ok h).2]
    exact caseIds_congr (KeepsSelection.caseIds_merge lawful)
  | append _ _ h =>
    rw [(nextRun_ok h).2]
    refine caseIds_congr ?_
    show Fields.get ((a.fields.merge _).insert "current_scoring_pass_id" _) "case_ids" = _
    rw [Fields.get, Finmap.lookup_insert_of_ne _ (by decide)]
    exact lawful.2.1.caseIds_merge
  | _ => exact lawful.elim

/-- How a run comes to be disposed of: by a bare change of status, or by a pass. -/
theorem edit_disposed (h : RunEdit r k a u) (lawful : Lawful r) (hend : disposed u.status = true) :
    disposed a.status = true ∨
      (∃ r', r = .run (.transition r') ∧ r'.runId = k ∧ disposed (some r'.status) = true) ∨
      ∃ r', r = .append r' ∧ r'.runId = k ∧ r'.finalStatus ≠ none := by
  cases h with
  | update h =>
    rw [update_status h lawful] at hend
    exact .inl hend
  | @transition r' _ _ h =>
    obtain ⟨-, -, rfl⟩ := transitionRun_ok h
    exact .inr (.inl ⟨r', rfl, rfl, hend⟩)
  | quarantine _ _ h =>
    rw [(nextRun_ok h).2] at hend
    have hreview : disposed (some "needs_review") = true := hend
    exact absurd hreview (by decide)
  | @append r' _ _ _ _ _ h =>
    rw [(nextRun_ok h).2] at hend
    cases hfinal : r'.finalStatus with
    | none =>
      refine .inl ?_
      simpa [RunInput.stored, storedRun, hfinal] using hend
    | some final => exact .inr (.inr ⟨r', rfl, rfl, by rw [hfinal]; exact fun hnone => by cases hnone⟩)
  | _ => exact lawful.elim

end Edits

/-! ### What the callers rely on -/

/-- The attempt of an id. -/
def Platform.attemptAt {σ : Type} (P : Platform σ) (s : σ) (k : String) : Option Attempt := (P.attempts s).get k

/-- What is used of a store beyond its runs: rows stay and have their keys, open attempts
stay open, and an append that moves the run has stored its rows. -/
structure Platform.EndLaws {σ : Type} (P : Platform σ) : Prop extends P.RowLaws where
  keyed : ∀ r s, Keyed (P.caseRuns s) → Keyed (P.caseRuns (P.serve r s).2)
  attempts : ∀ r s, ClosesNothing r → OpenKept (P.attemptAt s) (P.attemptAt (P.serve r s).2)
  setCaseRuns_attempts : ∀ rows s, P.attempts (P.setCaseRuns rows s) = P.attempts s
  setEvents_attempts : ∀ events s, P.attempts (P.setEvents events s) = P.attempts s
  appended : ∀ r s, Keyed (P.caseRuns s) → Appended r (P.attemptAt s) (P.caseRuns (P.serve (.append r) s).2) ∨
    P.runAt (P.serve (.append r) s).2 = P.runAt s

theorem memoryEnds : memory.EndLaws where
  toRowLaws := memoryRows
  keyed r s h := Memory.serve_keyed r s h
  attempts r s hr := by
    have other (hc : ∀ c, r ≠ .attempt c) : OpenKept s.attempt (Memory.serve r s).2.attempt := by
      have hsame : (Memory.serve r s).2.attempt = s.attempt := (Memory.serve_kept r s hc).attempts
      rw [hsame]
      exact OpenKept.refl _
    cases r with
    | attempt c => cases c with
      | quarantine q =>
        refine Op.wp_state (x := Memory.serve (.attempt (.quarantine q)))
          (Q := fun t : Memory.Store => OpenKept s.attempt t.attempt) ?_
        simp only [Memory.serve, Memory.serveAttempt, Memory.onAudit, Op.wp_zoom, Op.wp_bind, Op.wp_pure]
        exact Op.wp_mono (Memory.quarantine_open q) (fun _ _ h => h) (fun _ _ h => h ▸ OpenKept.refl _)
      | _ => exact hr.elim
    | _ => exact other (fun _ h => (by cases h))
  setCaseRuns_attempts _ _ := rfl
  setEvents_attempts _ _ := rfl
  appended r s h := by
    refine Op.wp_state (x := Memory.serve (.append r)) (Q := fun t : Memory.Store =>
      Appended r s.attempt t.caseRuns ∨ t.run = s.run) ?_
    simp only [Memory.serve, Memory.onAudit, Op.wp_zoom, Op.wp_bind, Op.wp_pure]
    exact Op.wp_mono (Op.wp_and (Memory.append_stored r h) (Memory.append_moves r)) (fun _ _ h => .inl h.1.2)
      (fun _ _ h => .inr h.2)

theorem sqliteEnds : sqlite.EndLaws where
  toRowLaws := sqliteRows
  keyed r s h := Sqlite.serve_keyed r s h
  attempts r s hr := by
    have hget : ∀ s : Sqlite.Database, sqlite.attemptAt s = s.attempt := fun s => funext (fun k => Table.get_map _ _ k)
    rw [hget, hget]
    have other (hc : ∀ c, r ≠ .attempt c) : OpenKept s.attempt (Sqlite.serve r s).2.attempt := by
      have hsame : (Sqlite.serve r s).2.attempt = s.attempt := (Sqlite.serve_kept r s hc).attempts
      rw [hsame]
      exact OpenKept.refl _
    cases r with
    | attempt c => cases c with
      | quarantine q =>
        refine Op.wp_state (x := Sqlite.serve (.attempt (.quarantine q)))
          (Q := fun t : Sqlite.Database => OpenKept s.attempt t.attempt) ?_
        simp only [Sqlite.serve, Sqlite.serveAttempt, Sqlite.onAudit, Op.wp_zoom, Op.wp_bind, Op.wp_pure]
        exact Op.wp_mono (Sqlite.quarantine_open q) (fun _ _ h => h) (fun _ _ h => h ▸ OpenKept.refl _)
      | _ => exact hr.elim
    | _ => exact other (fun _ h => (by cases h))
  setCaseRuns_attempts _ _ := rfl
  setEvents_attempts _ _ := rfl
  appended r s h := by
    have hget : sqlite.attemptAt s = s.attempt := funext (fun k => Table.get_map _ _ k)
    rw [hget]
    refine Op.wp_state (x := Sqlite.serve (.append r)) (Q := fun t : Sqlite.Database =>
      Appended r s.attempt t.caseRuns ∨ t.run = s.run) ?_
    simp only [Sqlite.serve, Sqlite.onAudit, Op.wp_zoom, Op.wp_bind, Op.wp_pure]
    exact Op.wp_mono (Sqlite.append_stored r h) (fun _ _ h => .inl h.2) (fun _ _ h => .inr (by rw [h]))

section System
variable {σ : Type} (P : Platform σ) (L : P.RunLaws) (runId : String) (cases : List String)

/-- Every selected case has a row. -/
def Complete (s : σ) : Prop := ∀ caseId ∈ cases, ∃ row ∈ rowsOf (P.caseRuns s) runId, row.caseId = caseId

instance (s : σ) : Decidable (Complete P runId cases s) :=
  inferInstanceAs (Decidable (∀ caseId ∈ cases, ∃ row ∈ rowsOf (P.caseRuns s) runId, row.caseId = caseId))

/-- The run is stored with these cases selected. -/
structure Intact (s : σ) : Prop where
  sound : L.Sound s
  keyed : Keyed (P.caseRuns s)
  selected : (P.runAt s runId).map caseIds = some cases

/-- What every call leaves to the others. -/
structure Steps (s t : σ) : Prop where
  rows : RowsKept P s t
  attempts : OpenKept (P.attemptAt s) (P.attemptAt t)
  intact : Intact P L runId cases s → Intact P L runId cases t

/-- A bare change of status that ends the run finds the rows of its cases. -/
def Covered (s : σ) : Ask → Prop
  | .store (.run (.transition r)) => r.runId = runId ∧ disposed (some r.status) = true → Complete P runId cases s
  | _ => True

instance (s : σ) (q : Ask) : Decidable (Covered P runId cases s q) := by
  unfold Covered
  split <;> infer_instance

/-- What one call does: if it ends the run, the rows are there. -/
structure Disposes (e : Made σ) : Prop where
  steps : Steps P L runId cases e.before e.after
  rows : Intact P L runId cases e.before → Covered P runId cases e.before e.q →
    disposed (statusAt P e.after runId) = true →
      disposed (statusAt P e.before runId) = true ∨ Complete P runId cases e.after

variable {P L runId cases}

theorem Steps.refl (s : σ) : Steps P L runId cases s s := ⟨RowsKept.refl s, OpenKept.refl _, id⟩

theorem Steps.trans {a b c : σ} (h : Steps P L runId cases a b) (h' : Steps P L runId cases b c) :
    Steps P L runId cases a c :=
  ⟨ResultsKept.trans h.rows h'.rows, h.attempts.trans h'.attempts, fun ha => h'.intact (h.intact ha)⟩

theorem Complete.kept {s t : σ} (h : Complete P runId cases s) (hrows : RowsKept P s t) :
    Complete P runId cases t := by
  intro caseId hid
  obtain ⟨row, hrow, hcase⟩ := h caseId hid
  exact ⟨row, mem_rowsOf_kept hrows hrow, hcase⟩

/-! ### One call -/

/-- The calls of the executor of an external job, and of everybody who acts on its run. -/
def Fits (cases : List String) : Ask → Prop
  | .store r => Lawful r ∧ Selects cases r ∧ ClosesNothing r
  | _ => True

theorem fits_append {r : AppendRequest} (h : Lawful (.append r)) : Fits cases (.store (.append r)) :=
  ⟨h, trivial, trivial⟩

theorem Steady.fits {q : Ask} (h : Steady q) : Fits cases q := by
  cases q with
  | store r => cases r with
    | run c => cases c with
      | transition r => exact ⟨h, trivial, trivial⟩
      | _ => exact h.elim
    | attempt c => cases c with
      | quarantine r => exact ⟨h, trivial, trivial⟩
      | _ => exact h.elim
    | append r => exact ⟨h.1, trivial, trivial⟩
    | _ => exact h.elim
  | _ => trivial

theorem answer_intact (E : P.EndLaws) {q : Ask} (fits : Fits cases q) (o : Oracle) {s : σ}
    (h : Intact P L runId cases s) : Intact P L runId cases (P.answer o q s).2 := by
  by_cases hq : ∀ r, q ≠ .store r
  · obtain ⟨hruns, hsound⟩ := answer_runs L h.sound o hq
    refine ⟨hsound, ?_, by rw [hruns]; exact h.selected⟩
    cases q with
    | store r => exact absurd rfl (hq r)
    | upsert row =>
      show Keyed (P.caseRuns (P.setCaseRuns _ s))
      rw [E.setCaseRuns]
      exact h.keyed.upsert row
    | emit event =>
      simp only [Platform.answer]
      split
      · exact h.keyed
      · rw [E.setEvents]
        exact h.keyed
    | _ => exact h.keyed
  · simp only [not_forall, not_not] at hq
    obtain ⟨r, rfl⟩ := hq
    have hstate : (P.answer o (.store r) s).2 = (P.serve r s).2 := mapErr_state _ _ s
    obtain ⟨moved, hsound⟩ := L.served s r h.sound fits.1
    rw [hstate]
    refine ⟨hsound, E.keyed r s h.keyed, ?_⟩
    rcases moved runId with hsame | ⟨_, _, _, _, _, _, _, rfl⟩ | ⟨a, u, ha, hu, hedit⟩
    · rw [hsame]
      exact h.selected
    · exact fits.1.elim
    · have hselected := h.selected
      rw [ha, Option.map_some, Option.some_inj] at hselected
      rw [hu, Option.map_some, edit_caseIds hedit fits.1 (hselected ▸ fits.2.1), hselected]

theorem answer_steps (E : P.EndLaws) {q : Ask} (fits : Fits cases q) (o : Oracle) (s : σ) :
    Steps P L runId cases s (P.answer o q s).2 := by
  refine ⟨answer_rows E.toRowLaws o q s, ?_, answer_intact E fits o⟩
  cases q with
  | store r =>
    have hstate : (P.answer o (.store r) s).2 = (P.serve r s).2 := mapErr_state _ _ s
    rw [hstate]
    exact E.attempts r s fits.2.2
  | upsert row =>
    show OpenKept _ (fun k => (P.attempts (P.setCaseRuns _ s)).get k)
    rw [E.setCaseRuns_attempts]
    exact OpenKept.refl _
  | emit event =>
    simp only [Platform.answer]
    split
    · exact OpenKept.refl _
    · show OpenKept _ (fun k => (P.attempts (P.setEvents _ s)).get k)
      rw [E.setEvents_attempts]
      exact OpenKept.refl _
  | _ => exact OpenKept.refl _

/-- A call that ends the run is a covered change of status, or a pass whose rows are stored. -/
theorem answer_disposed (E : P.EndLaws) {q : Ask} (fits : Fits cases q) (o : Oracle) {s : σ}
    (h : Intact P L runId cases s) (covered : Covered P runId cases s q)
    (hend : disposed (statusAt P (P.answer o q s).2 runId) = true) :
    disposed (statusAt P s runId) = true ∨ Complete P runId cases s ∨
      ∃ r, q = .store (.append r) ∧ r.finalStatus ≠ none ∧ r.runId = runId ∧
        Appended r (P.attemptAt s) (P.caseRuns (P.answer o q s).2) := by
  by_cases hq : ∀ r, q ≠ .store r
  · rw [statusAt, (answer_runs L h.sound o hq).1] at hend
    exact .inl hend
  · simp only [not_forall, not_not] at hq
    obtain ⟨r, rfl⟩ := hq
    have hstate : (P.answer o (.store r) s).2 = (P.serve r s).2 := mapErr_state _ _ s
    rw [hstate] at hend ⊢
    obtain ⟨moved, -⟩ := L.served s r h.sound fits.1
    rcases moved runId with hsame | ⟨_, _, _, _, _, _, _, rfl⟩ | ⟨a, u, ha, hu, hedit⟩
    · rw [statusAt, hsame] at hend
      exact .inl hend
    · exact fits.1.elim
    · simp only [statusAt, ha, hu, Option.bind_some] at hend ⊢
      rcases edit_disposed hedit fits.1 hend with hbefore | ⟨r', rfl, hrun, hbare⟩ | ⟨r', rfl, hrun, hfinal⟩
      · exact .inl hbefore
      · exact .inr (.inl (covered ⟨hrun, hbare⟩))
      · rcases E.appended r' s h.keyed with happended | hsame
        · exact .inr (.inr ⟨r', rfl, hfinal, hrun, happended⟩)
        · rw [hsame, ha, Option.some_inj] at hu
          rw [← hu] at hend
          exact .inl hend

/-- A call other than a pass that ends a run. -/
theorem disposes_call (E : P.EndLaws) {q : Ask} (fits : Fits cases q)
    (hq : ∀ r, q = .store (.append r) → r.finalStatus = none) (o : Oracle) (s : σ) :
    Disposes P L runId cases (served P.answer o q s) := by
  refine ⟨answer_steps E fits o s, fun hintact covered hend => ?_⟩
  rcases answer_disposed E fits o hintact covered hend with hbefore | hcomplete | ⟨r, hr, hfinal, -⟩
  · exact .inl hbefore
  · exact .inr (hcomplete.kept (answer_rows E.toRowLaws o q s))
  · exact absurd (hq r hr) hfinal

theorem disposes_steady (E : P.EndLaws) {q : Ask} (h : Steady q) (o : Oracle) (s : σ) :
    Disposes P L runId cases (served P.answer o q s) := by
  refine disposes_call E h.fits (fun r hr => ?_) o s
  subst hr
  exact h.2

/-! ### Methods -/

variable (P L runId cases)

/-- A script each of whose calls disposes of the cases of the run. -/
abbrev Disposing {α : Type} (x : Method α) (past : List (Made σ)) (s : σ)
    (post : Except Exn α → List (Made σ) → σ → Prop) : Prop :=
  x.Safe P.answer (Steps P L runId cases) (fun _ e => Disposes P L runId cases e) post past s

/-- What every call keeps. -/
def Stable (I : σ → Prop) : Prop := ∀ s t, I s → Steps P L runId cases s t → I t

variable {P L runId cases}

theorem stable_intact : Stable P L runId cases (Intact P L runId cases) := fun _ _ h hsteps => hsteps.intact h

theorem stable_complete : Stable P L runId cases (Complete P runId cases) := fun _ _ h hsteps => h.kept hsteps.rows

theorem Stable.and {I J : σ → Prop} (hi : Stable P L runId cases I) (hj : Stable P L runId cases J) :
    Stable P L runId cases (fun s => I s ∧ J s) :=
  fun s t h hsteps => ⟨hi s t h.1 hsteps, hj s t h.2 hsteps⟩

section Methods
variable {α : Type} {past : List (Made σ)} {s : σ} {I : σ → Prop}

theorem Disposing.frame {x : Method α} {post : Except Exn α → List (Made σ) → σ → Prop}
    (h : Disposing P L runId cases x past s post) (stable : Stable P L runId cases I) (hi : I s) :
    Disposing P L runId cases x past s (fun r past t => post r past t ∧ I t) :=
  Safe.frame (fun _ _ he => he.steps) stable h hi

/-- One method after another that keep the same. -/
theorem Disposing.thenKeeps {β : Type} {x : Method α} {f : α → Method β}
    (h : Disposing P L runId cases x past s (fun _ _ => I))
    (hf : ∀ a past t, I t → Disposing P L runId cases (f a) past t (fun _ _ => I)) :
    Disposing P L runId cases (x >>= f) past s (fun _ _ => I) := Safe.bind h hf (fun _ _ _ h => h)

theorem disposing_steady (E : P.EndLaws) {x : Method α} (hx : x.Asks Steady) (stable : Stable P L runId cases I)
    (hi : I s) : Disposing P L runId cases x past s (fun _ _ => I) := by
  refine hx.safe (I := fun _ => I) (fun _ => stable) (fun past s q o hq hi => ?_) hi
  exact ⟨disposes_steady E hq o s, stable _ _ hi (answer_steps E hq.fits o s)⟩

theorem disposing_load (E : P.EndLaws) (h : Intact P L runId cases s) :
    Disposing P L runId cases (load runId) past s (fun r _ t => Intact P L runId cases t ∧
      ∀ run, r = .ok run → caseIds run = cases) := by
  have hget : Disposing P L runId cases (getRun runId) past s (fun r _ t => Intact P L runId cases t ∧
      ∀ run, r = .ok (some run) → caseIds run = cases) := by
    have hsteady : Steady (.getRun runId) := trivial
    refine safe_call (q := Ask.getRun runId) (fun t hst o => ?_)
    refine ⟨disposes_steady E hsteady o t, hst.intact h, fun run hrun => ?_⟩
    have hselected := (hst.intact h).selected
    rw [show P.runAt t runId = some run from Except.ok.inj hrun] at hselected
    exact Option.some.inj hselected
  refine Safe.bind hget (fun found past t h => ?_) (fun _ _ _ h => ⟨h.1, nofun⟩)
  cases found with
  | none => exact ⟨h.1, nofun⟩
  | some run => exact ⟨h.1, fun _ hr => Except.ok.inj hr ▸ h.2 run rfl⟩

/-! ### Ending a run by a pass -/

/-- A pass that ends the run disposes of its cases, if its rows complete them. -/
theorem disposes_append (E : P.EndLaws) {r : AppendRequest} (lawful : Lawful (.append r)) (o : Oracle)
    (hrows : ∀ t, RowsKept P s t → Intact P L runId cases t → r.runId = runId →
      Appended r (P.attemptAt s) (P.caseRuns t) → Complete P runId cases t) :
    Disposes P L runId cases (served P.answer o (.store (.append r)) s) := by
  have fits : Fits cases _ := fits_append lawful
  have hkept := answer_rows E.toRowLaws o (.store (.append r)) s
  refine ⟨answer_steps E fits o s, fun hintact covered hend => ?_⟩
  rcases answer_disposed E fits o hintact covered hend with hbefore | hcomplete | ⟨r', hr, -, hrun, happended⟩
  · exact .inl hbefore
  · exact .inr (hcomplete.kept hkept)
  · cases hr
    exact .inr (hrows _ hkept (answer_intact E fits o hintact) hrun happended)

theorem disposing_appendScoringPass (E : P.EndLaws) {scores : List Score} {args : PassArgs} (hargs : args.Lawful)
    (stable : Stable P L runId cases I) (hi : I s)
    (hrows : ∀ s t r, I s → RowsKept P s t → Intact P L runId cases t → r.caseRows = args.caseRows →
      r.requireNoOpenAttempts = args.requireNoOpenAttempts → r.expectedRunRevision ≠ none → r.runId = runId →
      Appended r (P.attemptAt s) (P.caseRuns t) → Complete P runId cases t) :
    Disposing P L runId cases (appendScoringPass runId scores args) past s (fun _ _ => I) := by
  have hasks : (appendScoringPass runId scores args).Asks (fun q => Steady q ∨ ∃ r, q = .store (.append r) ∧
      Lawful (.append r) ∧ r.caseRows = args.caseRows ∧ r.requireNoOpenAttempts = args.requireNoOpenAttempts ∧
      r.expectedRunRevision ≠ none) :=
    asks_appendScoringPass (fun q hq => .inl hq.steady)
      (fun _ _ _ _ _ _ => .inr ⟨_, rfl, lawful_passRequest hargs, rfl, rfl, nofun⟩)
  refine hasks.safe (I := fun _ => I) (fun _ => stable) (fun past s q o hq hi => ?_) hi
  rcases hq with hsteady | ⟨r, rfl, lawful, hcase, hopen, hrev⟩
  · exact ⟨disposes_steady E hsteady o s, stable _ _ hi (answer_steps E hsteady.fits o s)⟩
  · refine ⟨disposes_append E lawful o (fun t hkept hintact => hrows s t r hi hkept hintact hcase hopen hrev), ?_⟩
    exact stable _ _ hi (answer_steps E (fits_append lawful) o s)

/-- The rows that were found and the open attempts that were found are still there. -/
structure Found (P : Platform σ) (runId : String) (existing : List CaseRow) (attempts : List Attempt) (s : σ) :
    Prop where
  rows : ∀ row ∈ existing, row ∈ rowsOf (P.caseRuns s) runId
  attempts : ∀ a ∈ attempts, ∃ k b, P.attemptAt s k = some b ∧ b.runId = runId ∧ b.caseId = a.caseId ∧
    b.status.isOpen = true

theorem stable_found (existing : List CaseRow) (attempts : List Attempt) :
    Stable P L runId cases (Found P runId existing attempts) := by
  intro s t h hsteps
  refine ⟨fun row hrow => mem_rowsOf_kept hsteps.rows (h.rows row hrow), fun a ha => ?_⟩
  obtain ⟨k, b, hb, hrun, hcase, hopen⟩ := h.attempts a ha
  obtain ⟨b', hb', hsame, hopen'⟩ := hsteps.attempts k b hb hopen
  have hscope := Attempt.scope_of_identity hsame
  exact ⟨k, b', hb', (congrArg (·.1) hscope).trans hrun, (congrArg (·.2.1) hscope).trans hcase, hopen'⟩

/-- The rows that were found and those that the pass brings complete the cases. -/
theorem complete_of_appended {existing : List CaseRow} {attempts : List Attempt} {r : AppendRequest} {t : σ}
    (found : Found P runId existing attempts s) (hrows : RowsKept P s t) (keyed : Keyed (P.caseRuns t))
    (hcase : r.caseRows = (cases.filter (fun caseId => caseId ∉ existing.map (·.caseId) ∧
      caseId ∉ attempts.map (·.caseId))).map (notAttempted runId))
    (hopen : r.requireNoOpenAttempts = true) (hrev : r.expectedRunRevision ≠ none) (hrun : r.runId = runId)
    (happended : Appended r (P.attemptAt s) (P.caseRuns t)) : Complete P runId cases t := by
  have hnone : attempts = [] := by
    rw [List.eq_nil_iff_forall_not_mem]
    intro a ha
    obtain ⟨k, b, hb, hbrun, -, hbopen⟩ := found.attempts a ha
    have hclosed := happended.closed hopen hrev k b hb (hbrun.trans hrun.symm)
    rw [hbopen] at hclosed
    cases hclosed
  intro caseId hid
  by_cases hexisting : caseId ∈ existing.map (·.caseId)
  · obtain ⟨row, hrow, rfl⟩ := List.mem_map.1 hexisting
    exact ⟨row, mem_rowsOf_kept hrows (found.rows row hrow), rfl⟩
  · have hbrought : notAttempted runId caseId ∈ r.caseRows := by
      rw [hcase, hnone]
      exact List.mem_map_of_mem (List.mem_filter.2 ⟨hid, by simpa using hexisting⟩)
    obtain ⟨⟨ordinal, row⟩, hrow⟩ := happended.stored _ hbrought
    have hkey := keyed _ _ hrow
    exact ⟨row, mem_rowsOf.2 ⟨caseId, ordinal, hrow⟩, (congrArg Prod.snd hkey).symm⟩

theorem disposing_caseRowsOf (E : P.EndLaws) :
    Disposing P L runId cases (caseRowsOf runId) past s (fun r _ t => ∀ existing, r = .ok existing →
      Found P runId existing [] t) := by
  have hsteady : Steady (.caseRows runId) := trivial
  refine safe_call (q := Ask.caseRows runId) (fun t _ o => ⟨disposes_steady E hsteady o t, fun existing hr => ?_⟩)
  cases hr
  exact ⟨fun _ hrow => hrow, nofun⟩

theorem disposing_openAttempts (E : P.EndLaws) {existing : List CaseRow} (h : Found P runId existing [] s) :
    Disposing P L runId cases (openAttempts runId) past s (fun r _ t => ∀ attempts, r = .ok attempts →
      Found P runId existing attempts t) := by
  have hattempts : Disposing P L runId cases (attemptsOfRun runId) past s (fun r _ t =>
      Found P runId existing [] t ∧ ∀ attempts, r = .ok attempts → ∀ a ∈ attempts,
        ∃ k, P.attemptAt t k = some a ∧ a.runId = runId) := by
    have hsteady : Steady (.attempts runId) := trivial
    refine safe_call (q := Ask.attempts runId) (fun t hst o => ⟨disposes_steady E hsteady o t, ?_, ?_⟩)
    · exact stable_found existing [] s t h hst
    · intro attempts hr a ha
      cases hr
      obtain ⟨hmem, hrun⟩ := List.mem_filter.1 ha
      obtain ⟨⟨k, _⟩, hk, rfl⟩ := List.mem_map.1 hmem
      exact ⟨k, Table.get_of_mem hk, of_decide_eq_true hrun⟩
  refine Safe.bind hattempts (fun attempts past t h => ?_) (fun _ _ _ _ => nofun)
  intro opened hr
  cases hr
  refine ⟨h.1.rows, fun a ha => ?_⟩
  obtain ⟨hmem, hopen⟩ := List.mem_filter.1 ha
  obtain ⟨k, hk, hrun⟩ := h.2 attempts rfl a hmem
  exact ⟨k, a, hk, hrun, rfl, hopen⟩

theorem disposing_finishUnattempted (E : P.EndLaws) (final : RunState) (error : Json) {changes : Fields}
    (payload : Fields) (hchanges : KeepsSelection changes) (h : Intact P L runId cases s) :
    Disposing P L runId cases (finishUnattempted runId final error changes payload) past s
      (fun _ _ => Intact P L runId cases) := by
  refine Safe.bind (disposing_load E h) (fun run past s h => ?_) (fun _ _ _ h => h.1)
  have hselected := h.2 run rfl
  refine Safe.bind ((disposing_caseRowsOf E).frame stable_intact h.1) (fun existing past s h => ?_) (fun _ _ _ h => h.2)
  refine Safe.bind ((disposing_openAttempts E (h.1 existing rfl)).frame stable_intact h.2)
    (fun attempts past s h => ?_) (fun _ _ _ h => h.2)
  have stable : Stable P L runId cases (fun s => Intact P L runId cases s ∧ Found P runId existing attempts s) :=
    stable_intact.and (stable_found existing attempts)
  have hi : Intact P L runId cases s ∧ Found P runId existing attempts s := ⟨h.2, h.1 attempts rfl⟩
  refine Safe.bind (disposing_steady E (asks_call trivial) stable hi) (fun _ past s hi => ?_) (fun _ _ _ h => h.1)
  refine Safe.bind (disposing_steady E ?_ stable hi) (fun scored past s hi => ?_) (fun _ _ _ h => h.1)
  · refine asks_bind (asks_result (steady_scoreResults runId _)) (fun outcome => ?_)
    cases outcome <;> trivial
  · obtain ⟨scores, effective⟩ := scored
    have hpass : ∀ past s scores args, args.Lawful → args.requireNoOpenAttempts = true →
        args.caseRows = ((caseIds run).filter (fun caseId => caseId ∉ existing.map (·.caseId) ∧
          caseId ∉ attempts.map (·.caseId))).map (notAttempted runId) →
        Intact P L runId cases s ∧ Found P runId existing attempts s →
        Disposing P L runId cases (appendScoringPass runId scores args) past s
          (fun _ _ s => Intact P L runId cases s ∧ Found P runId existing attempts s) := by
      intro past s scores args hargs hclosed hbrings hi
      refine disposing_appendScoringPass E hargs stable hi ?_
      intro s t r hi hkept hintact hcase hopen hrev hrun happended
      rw [hbrings, hselected] at hcase
      exact complete_of_appended hi.2 hkept hintact.keyed hcase (hopen.trans hclosed) hrev hrun happended
    refine Safe.handle (hpass _ _ _ _ ⟨hchanges, fun _ => rfl⟩ rfl rfl hi) (fun _ _ _ h => h.1) (fun e past s hi => ?_)
    refine safe_ite (fun _ => hi.1) (fun _ => ?_)
    exact (hpass _ _ _ _ ⟨hchanges, fun _ => rfl⟩ rfl rfl hi).mono (fun _ _ _ h => h.1)

/-! ### Cancellation, failure, refusal -/

/-- A steady method in an intact store. -/
theorem disposing_intact (E : P.EndLaws) {x : Method α} (hx : x.Asks Steady) (h : Intact P L runId cases s) :
    Disposing P L runId cases x past s (fun _ _ => Intact P L runId cases) := disposing_steady E hx stable_intact h

theorem selects_cancellationRequest {run : Run} (h : caseIds run = cases) (found : String)
    (cancellation reason : Json) (now : Timestamp) :
    Selects cases (.run (.update (cancellationRequest runId run found cancellation reason now))) := by
  intro revision
  rw [← h]
  refine caseIds_congr ?_
  show Fields.get ((run.fields.insert "cancellation" _).insert "updated_at" _) "case_ids" = _
  rw [Fields.get, Finmap.lookup_insert_of_ne _ (by decide), Finmap.lookup_insert_of_ne _ (by decide)]
  rfl

theorem disposing_requestCancellation (E : P.EndLaws) {run : Run} {found : String} {cancellation reason : Json}
    {now : Timestamp} (hstatus : run.status = some found) (hselected : caseIds run = cases)
    (h : Intact P L runId cases s) :
    Disposing P L runId cases (requestCancellation runId run found cancellation reason now) past s
      (fun _ _ => Intact P L runId cases) := by
  have fits : Fits cases (.store (.run (.update (cancellationRequest runId run found cancellation reason now)))) :=
    ⟨.inl hstatus.symm, selects_cancellationRequest hselected found cancellation reason now, trivial⟩
  have hcall : Disposing P L runId cases
      (call (.store (.run (.update (cancellationRequest runId run found cancellation reason now))))) past s
      (fun _ _ => Intact P L runId cases) := by
    refine safe_call (fun t hst o => ⟨disposes_call E fits (fun _ hr => nomatch hr) o t, ?_⟩)
    exact answer_intact E fits o (hst.intact h)
  exact Safe.bind hcall (fun _ _ _ h => h) (fun _ _ _ h => h)

theorem disposing_finishCancelled (E : P.EndLaws) (run : Run) (cancellation reason : Json)
    (h : Intact P L runId cases s) :
    Disposing P L runId cases (finishCancelled runId run cancellation reason) past s
      (fun _ _ => Intact P L runId cases) := by
  have hchanges : KeepsSelection (if cancellation.truthy then (∅ : Fields).insert "cancellation" cancellation else ∅) := by
    split
    · exact keepsSelection_empty.insert _ _ (by decide) (by decide)
    · exact keepsSelection_empty
  unfold finishCancelled
  simp only
  refine safe_ite (fun _ => ?_) (fun _ => ?_)
  · refine Disposing.thenKeeps (Safe.handle (disposing_finishUnattempted E .cancelled .null _ hchanges h)
      (fun _ _ _ h => h) ?_) (fun _ _ _ h => disposing_intact E (steady_view runId) h)
    intro e past s h
    refine safe_ite (fun _ => ?_) (fun _ => h)
    refine Safe.bind (disposing_load E h) (fun current past s h => ?_) (fun _ _ _ h => h.1)
    refine safe_lift_bind (fun found hfound => safe_ite (fun _ => h.1) (fun _ => ?_)) (fun _ _ => h.1)
    refine Disposing.thenKeeps (disposing_intact E steady_now h.1) (fun now past s hs => ?_)
    exact disposing_requestCancellation E (statusOf_ok hfound) (h.2 current rfl) hs
  · refine Safe.bind (disposing_intact E (steady_transition runId .cancelled _ hchanges) h)
      (fun _ _ _ h => disposing_intact E (steady_view runId) h) (fun _ _ _ h => h)

theorem disposing_cancel (E : P.EndLaws) (reason : Json) (settle : Bool) (h : Intact P L runId cases s) :
    Disposing P L runId cases (cancel runId reason settle) past s (fun _ _ => Intact P L runId cases) := by
  refine Safe.bind (disposing_load E h) (fun run past s h => ?_) (fun _ _ _ h => h.1)
  have hselected := h.2 run rfl
  refine safe_lift_bind (fun found hfound => ?_) (fun _ _ => h.1)
  refine safe_ite (fun _ => disposing_intact E (steady_view runId) h.1) (fun _ => ?_)
  refine Safe.bind (disposing_intact E (steady_openAttempts runId) h.1) (fun waiting past s h => ?_) (fun _ _ _ h => h)
  refine Safe.bind (disposing_intact E (asks_call trivial) h) (fun interrupter past s h => ?_) (fun _ _ _ h => h)
  simp only
  refine safe_ite (fun _ => ?_) (fun _ => safe_ite (fun _ => ?_) (fun _ => ?_))
  · refine Safe.bind (disposing_intact E steady_now h) (fun now past s h => ?_) (fun _ _ _ h => h)
    exact Safe.bind (disposing_requestCancellation E (statusOf_ok hfound) hselected h)
      (fun _ _ _ h => disposing_intact E (steady_view runId) h) (fun _ _ _ h => h)
  · refine Safe.bind (disposing_intact E steady_now h) (fun now past s h => ?_) (fun _ _ _ h => h)
    refine Safe.bind (disposing_requestCancellation E (statusOf_ok hfound) hselected h) (fun _ past s h => ?_)
      (fun _ _ _ h => h)
    have hinterrupt := asks_handle (P := Steady) (x := call (.interrupt runId)) (asks_call trivial)
      (fun e => steady_emitRunEvent runId "external_job_interrupt_failed"
        (((∅ : Fields).insert "error_class" (.str e.typeName)).insert "message" (.str e.message)))
    refine Safe.bind (disposing_intact E hinterrupt h) (fun _ past s h => ?_) (fun _ _ _ h => h)
    refine Safe.bind (disposing_load E h) (fun refreshed past s h => ?_) (fun _ _ _ h => h.1)
    refine safe_lift_bind (fun found _ => ?_) (fun _ _ => h.1)
    exact safe_ite (fun _ => disposing_intact E (steady_view runId) h.1)
      (fun _ => disposing_finishCancelled E refreshed _ reason h.1)
  · exact disposing_finishCancelled E run _ reason h

theorem disposing_honorCancellation (E : P.EndLaws) (h : Intact P L runId cases s) :
    Disposing P L runId cases (honorCancellation runId) past s (fun _ _ => Intact P L runId cases) := by
  refine Safe.bind (disposing_load E h) (fun run past s h => ?_) (fun _ _ _ h => h.1)
  refine safe_lift_bind (fun found _ => safe_ite (fun _ => safe_ite (fun _ => ?_) (fun _ => h.1)) (fun _ => ?_))
    (fun _ _ => h.1)
  · exact Safe.bind (disposing_intact E (steady_view runId) h.1) (fun _ _ _ h => h) (fun _ _ _ h => h)
  · exact Safe.bind (disposing_cancel E _ true h.1) (fun _ _ _ h => h) (fun _ _ _ h => h)

theorem disposing_fail (E : P.EndLaws) (e : Exn) (h : Intact P L runId cases s) :
    Disposing P L runId cases (fail runId e) past s (fun _ _ => Intact P L runId cases) := by
  refine Safe.bind (disposing_load E h) (fun run past s h => ?_) (fun _ _ _ h => h.1)
  refine safe_lift_bind (fun found _ => safe_ite (fun _ => ?_) (fun _ => safe_ite (fun _ => ?_) (fun _ => ?_)))
    (fun _ _ => h.1)
  · exact disposing_intact E (steady_view runId) h.1
  · exact Safe.bind (disposing_finishUnattempted E .failed _ _ keepsSelection_empty h.1)
      (fun _ _ _ h => disposing_intact E (steady_view runId) h) (fun _ _ _ h => h)
  · exact disposing_intact E (steady_transition runId .failed _
      (keepsSelection_empty.insert _ _ (by decide) (by decide))) h.1

theorem disposing_failOrQuarantine (E : P.EndLaws) (e : Exn) (h : Intact P L runId cases s) :
    Disposing P L runId cases (failOrQuarantine runId e) past s (fun _ _ => Intact P L runId cases) := by
  refine Safe.bind (disposing_intact E (steady_attemptsOfRun runId) h) (fun attempts past s h => ?_) (fun _ _ _ h => h)
  simp only
  refine safe_ite (fun _ => disposing_fail E e h) (fun _ => disposing_intact E ?_ h)
  refine asks_bind (steady_load runId) (fun run => asks_bind steady_now (fun now => asks_status (fun found _ => ?_)))
  exact asks_bind (asks_change keepsSelection_quarantineRequest) (fun _ => steady_view runId)

theorem disposing_markUnsupported (E : P.EndLaws) (code : String) (message : Option String)
    (h : Intact P L runId cases s) :
    Disposing P L runId cases (markUnsupported runId code message) past s (fun _ _ => Intact P L runId cases) := by
  refine Safe.bind (disposing_load E h) (fun run past s h => ?_) (fun _ _ _ h => h.1)
  refine safe_lift_bind (fun found _ => safe_ite (fun _ => ?_) (fun _ => ?_)) (fun _ _ => h.1)
  · exact disposing_intact E (steady_view runId) h.1
  · simp only
    refine safe_ite (fun _ => ?_) (fun _ => ?_)
    · exact Safe.bind (disposing_finishUnattempted E .unsupported _ _ keepsSelection_empty h.1)
        (fun _ _ _ h => disposing_intact E (steady_view runId) h) (fun _ _ _ h => h)
    · exact Safe.bind (disposing_intact E (steady_transition runId .unsupported _
        (keepsSelection_empty.insert _ _ (by decide) (by decide))) h.1)
        (fun _ _ _ h => disposing_intact E (steady_view runId) h) (fun _ _ _ h => h)

theorem disposing_markProfileStale (E : P.EndLaws) (reason : Option String) (h : Intact P L runId cases s) :
    Disposing P L runId cases (markProfileStale runId reason) past s (fun _ _ => Intact P L runId cases) := by
  refine Safe.bind (disposing_load E h) (fun run past s h => ?_) (fun _ _ _ h => h.1)
  refine safe_lift_bind (fun found _ => safe_ite (fun _ => ?_) (fun _ => ?_)) (fun _ _ => h.1)
  · exact disposing_intact E (steady_view runId) h.1
  · refine safe_lift_bind (fun _ _ => ?_) (fun _ _ => h.1)
    simp only
    refine safe_ite (fun _ => ?_) (fun _ => ?_)
    · exact Safe.bind (disposing_finishUnattempted E .profileStale _ _ keepsSelection_empty h.1)
        (fun _ _ _ h => disposing_intact E (steady_view runId) h) (fun _ _ _ h => h)
    · exact disposing_intact E (steady_transition runId .profileStale _
        (keepsSelection_empty.insert _ _ (by decide) (by decide))) h.1

/-! ### The executor -/

/-- Every row of the table is of this run and of the case it stands for. -/
def OwnRows (runId : String) (rows : Table String CaseRow) : Prop :=
  ∀ caseId row, rows.get caseId = some row → row.runId = runId ∧ row.caseId = caseId

theorem OwnRows.set {rows : Table String CaseRow} (h : OwnRows runId rows) (caseId : String) {row : CaseRow}
    (hrun : row.runId = runId) (hcase : row.caseId = caseId) : OwnRows runId (rows.set caseId row) := by
  intro id found hfound
  rw [Table.get_set] at hfound
  split at hfound
  · rename_i hid
    cases hfound
    exact ⟨hrun, hcase.trans hid.symm⟩
  · exact h id found hfound

theorem ownRows_empty : OwnRows runId ∅ := fun _ _ h => nomatch h

theorem OwnRows.fillRows {rows : Table String CaseRow} (h : OwnRows runId rows) (selected : List String) :
    OwnRows runId (fillRows runId selected rows) := by
  induction selected generalizing rows with
  | nil => exact h
  | cons caseId rest ih =>
    refine ih ?_
    beta_reduce
    split
    · exact h
    · exact h.set caseId rfl rfl

theorem legacyRow_own (runId caseId : String) (item : Json) :
    (legacyRow runId caseId item).runId = runId ∧ (legacyRow runId caseId item).caseId = caseId := by
  unfold legacyRow
  simp only
  split
  · exact ⟨rfl, rfl⟩
  · split
    · exact ⟨rfl, rfl⟩
    · split <;> exact ⟨rfl, rfl⟩

theorem taskRow_own (w : Writing) (runId caseId : String) (records : List TrialRecord) :
    (taskRow w runId caseId records).runId = runId ∧ (taskRow w runId caseId records).caseId = caseId := by
  unfold taskRow
  simp only
  split <;> exact ⟨rfl, rfl⟩

theorem OwnRows.mapLegacy {w : Writing} {run : Run} {m : Mapped} (h : OwnRows runId m.rows) (items : List Json) :
    OwnRows runId (mapLegacy w run runId m items).rows := by
  induction items generalizing m with
  | nil => exact h
  | cons item rest ih =>
    unfold Service.mapLegacy
    split
    · split
      · split
        · exact ih h
        · split
          · exact ih h
          · exact ih (h.set _ (legacyRow_own _ _ _).1 (legacyRow_own _ _ _).2)
      · exact ih h
    · exact ih h

theorem ownRows_taskCaseRows (w : Writing) (selected : List String) (records : List TrialRecord) :
    OwnRows runId (taskCaseRows w runId selected records) := by
  have hgroups : ∀ (groups : List (String × List TrialRecord)) (rows : Table String CaseRow), OwnRows runId rows →
      OwnRows runId (groups.foldl (fun rows group => rows.set group.1 (taskRow w runId group.1 group.2)) rows) := by
    intro groups
    induction groups with
    | nil => exact fun _ h => h
    | cons group rest ih => exact fun rows h => ih _ (h.set _ (taskRow_own _ _ _ _).1 (taskRow_own _ _ _ _).2)
  exact (hgroups _ _ ownRows_empty).fillRows selected

theorem ownRows_externalJobRecords {w : Writing} {run : Run} {outcome : Json} {records : JobRecords}
    (h : externalJobRecords w runId run outcome = .ok records) : OwnRows runId records.rows := by
  unfold externalJobRecords at h
  split at h
  · obtain ⟨trials, -, h⟩ := except_bind_ok_iff.1 h
    cases h
    exact ownRows_taskCaseRows w _ trials
  · cases h
    exact (ownRows_empty.mapLegacy _).fillRows _

/-- Storing the rows of cases completes them. -/
theorem disposing_upsertRows (E : P.EndLaws) {rows : Table String CaseRow} (own : OwnRows runId rows)
    (ids done : List String) (hi : Intact P L runId cases s) (hdone : Complete P runId done s) :
    Disposing P L runId cases (upsertRows rows ids) past s (fun r _ t => Intact P L runId cases t ∧
      (r = .ok () → Complete P runId (done ++ ids) t)) := by
  induction ids generalizing done past s with
  | nil => exact ⟨hi, fun _ => by rwa [List.append_nil]⟩
  | cons caseId rest ih =>
    unfold upsertRows
    cases hrow : rows.get caseId with
    | none => exact ⟨hi, fun hnone => by cases hnone⟩
    | some row =>
      obtain ⟨hrun, hcase⟩ := own caseId row hrow
      have fits : Fits cases (.upsert row) := trivial
      have hupsert : Disposing P L runId cases (call (.upsert row)) past s (fun _ _ t => Intact P L runId cases t ∧
          Complete P runId (done ++ [caseId]) t) := by
        refine safe_call (fun t hst o => ⟨disposes_call E fits (fun _ hr => (by cases hr)) o t, ?_, ?_⟩)
        · exact answer_intact E fits o (hst.intact hi)
        · have hkept := answer_rows E.toRowLaws o (.upsert row) t
          intro id hid
          rcases List.mem_append.1 hid with hid | hid
          · exact (hdone.kept hst.rows).kept hkept id hid
          · obtain ⟨⟨ordinal, found⟩, hfound, -⟩ := answer_upsert E.toRowLaws o row t
            have hkey := (answer_intact E fits o (hst.intact hi)).keyed _ _ hfound
            rw [hrun] at hfound
            refine ⟨found, mem_rowsOf.2 ⟨_, ordinal, hfound⟩, ?_⟩
            rw [List.mem_singleton.1 hid, ← hcase]
            exact (congrArg Prod.snd hkey).symm
      refine Safe.bind hupsert (fun _ past t h => ?_) (fun _ _ _ h => ⟨h.1, fun hnone => by cases hnone⟩)
      rw [show done ++ caseId :: rest = done ++ [caseId] ++ rest by simp]
      exact ih (done ++ [caseId]) h.1 h.2

/-- Scoring a run whose rows are stored, unless it is cancelled. -/
theorem disposing_scored (E : P.EndLaws) {rows : List CaseRow} {args : PassArgs} (hargs : args.Lawful)
    (hi : Intact P L runId cases s) (hcomplete : Complete P runId cases s) :
    Disposing P L runId cases (do
      let scores ← scoreResults runId rows
      match ← honorCancellation runId with
      | some v => return some v
      | none =>
        appendScoringPass runId scores args
        return none) past s (fun _ _ => Intact P L runId cases) := by
  have stable : Stable P L runId cases (fun s => Intact P L runId cases s ∧ Complete P runId cases s) :=
    stable_intact.and stable_complete
  refine Safe.bind (disposing_steady E (steady_scoreResults runId rows) stable ⟨hi, hcomplete⟩)
    (fun scores past s h => ?_) (fun _ _ _ h => h.1)
  refine Safe.bind ((disposing_honorCancellation E h.1).frame stable_complete h.2) (fun cancelled past s h => ?_)
    (fun _ _ _ h => h.1)
  cases cancelled with
  | some v => exact h.1
  | none =>
    refine Safe.bind (disposing_appendScoringPass E hargs stable h ?_) (fun _ _ _ h => h.1) (fun _ _ _ h => h.1)
    exact fun _ _ _ h hkept _ _ _ _ _ _ => h.2.kept hkept

/-- Scoring and finishing a run whose rows are stored. -/
theorem disposing_finishScored (E : P.EndLaws) {rows : List CaseRow} {args : PassArgs} (hargs : args.Lawful)
    (hi : Intact P L runId cases s) (hcomplete : Complete P runId cases s) :
    Disposing P L runId cases (finishScored runId rows args) past s (fun _ _ => Intact P L runId cases) := by
  refine Safe.bind (disposing_scored E hargs hi hcomplete).result (fun outcome past s h => ?_) (fun _ _ _ h => ?_)
  · obtain ⟨_, _, h⟩ := h
    cases outcome with
    | error e => exact disposing_failOrQuarantine E e h
    | ok cancelled => cases cancelled with
      | some v => exact h
      | none => exact disposing_intact E (steady_view runId) h
  · obtain ⟨_, _, h⟩ := h
    exact h

theorem disposing_finishJob (E : P.EndLaws) {w : Writing} {run : Run} {outcome : Json} {records : JobRecords}
    {imported : TrialImport} (hi : Intact P L runId cases s) (hcomplete : Complete P runId cases s) :
    Disposing P L runId cases (finishJob w runId run outcome records imported) past s
      (fun _ _ => Intact P L runId cases) := by
  have stable : Stable P L runId cases (fun s => Intact P L runId cases s ∧ Complete P runId cases s) :=
    stable_intact.and stable_complete
  refine Safe.bind ((disposing_honorCancellation E hi).frame stable_complete hcomplete) (fun cancelled past s h => ?_)
    (fun _ _ _ h => h.1)
  cases cancelled with
  | some v => exact h.1
  | none =>
    refine Safe.bind (disposing_steady E (steady_caseRowsOf runId) stable h) (fun rows past s h => ?_)
      (fun _ _ _ h => h.1)
    refine safe_lift_bind (fun _ _ => ?_) (fun _ _ => h.1)
    refine Safe.bind (disposing_steady E (asks_call trivial) stable h) (fun _ past s h => ?_) (fun _ _ _ h => h.1)
    refine Safe.bind (disposing_steady E (asks_when (steady_emitRunEvent _ _ _)) stable h) (fun _ past s h => ?_)
      (fun _ _ _ h => h.1)
    exact disposing_finishScored E ⟨keepsSelection_empty, fun h => absurd rfl h⟩ h.1 h.2

theorem disposing_settleJob (E : P.EndLaws) {w : Writing} {run : Run} {outcome : Json} (hrun : caseIds run = cases)
    (h : Intact P L runId cases s) :
    Disposing P L runId cases (settleJob w runId run outcome) past s (fun _ _ => Intact P L runId cases) := by
  refine Disposing.thenKeeps (disposing_intact E (steady_reachScoring runId) h) (fun terminal past s h => ?_)
  refine safe_lift_bind (fun records hrecords => ?_) (fun _ _ => h)
  refine Disposing.thenKeeps (disposing_intact E (asks_call trivial) h) (fun imported past s h => ?_)
  refine Disposing.thenKeeps (disposing_intact E (asks_call trivial) h) (fun _ past s h => ?_)
  simp only
  generalize hrows : (if trialShaped run = true then _ else records.rows) = rows
  have own : OwnRows runId rows := by
    rw [← hrows]
    split
    · exact ownRows_taskCaseRows w _ _
    · exact ownRows_externalJobRecords hrecords
  cases terminal with
  | true =>
    refine Disposing.thenKeeps (safe_when (fun hfalse => by cases hfalse) (fun _ => h)) (fun _ past s h => ?_)
    refine Disposing.thenKeeps (disposing_intact E (asks_when (steady_emitRunEvent _ _ _)) h) (fun _ past s h => ?_)
    exact disposing_intact E (steady_finishAfterTerminalImport _ _ _ _) h
  | false =>
    have hnone : Complete P runId [] s := fun _ hid => (by cases hid)
    refine Safe.bind (safe_when (fun _ => disposing_upsertRows E own (caseIds run) [] h hnone)
      (fun h => absurd rfl h)) (fun _ past s h => ?_) (fun _ _ _ h => h.1)
    have hcomplete : Complete P runId cases s := hrun ▸ h.2 rfl
    refine Safe.bind (disposing_steady E (asks_when (steady_emitRunEvent _ _ _)) (stable_intact.and stable_complete)
      ⟨h.1, hcomplete⟩) (fun _ past s h => ?_) (fun _ _ _ h => h.1)
    exact disposing_finishJob E h.1 h.2

theorem disposing_executeExternalJob (E : P.EndLaws) {w : Writing} {run : Run} (hrun : caseIds run = cases)
    (h : Intact P L runId cases s) :
    Disposing P L runId cases (executeExternalJob w runId run) past s (fun _ _ => Intact P L runId cases) := by
  refine safe_lift_bind (fun _ _ => ?_) (fun _ _ => h)
  refine Disposing.thenKeeps (disposing_intact E (asks_call trivial) h) (fun _ past s h => ?_)
  refine safe_lift_bind (fun found _ => ?_) (fun _ _ => h)
  refine Disposing.thenKeeps (disposing_intact E (steady_startRunning runId found) h) (fun _ past s h => ?_)
  have fits : Fits cases (.jobEntry run) := trivial
  have hentry : Disposing P L runId cases (call (.jobEntry run)) past s (fun _ _ => Intact P L runId cases) :=
    safe_call (fun t hst o => ⟨disposes_call E fits (fun _ hr => nomatch hr) o t,
      answer_intact E fits o (hst.intact h)⟩)
  refine Safe.bind hentry.result (fun entry past s h => ?_) (fun _ _ _ h => ?_)
  · obtain ⟨_, _, h⟩ := h
    cases entry with
    | error e => exact disposing_failOrQuarantine E e h
    | ok outcome =>
      exact safe_ite (fun _ => disposing_settleJob E hrun h) (fun _ => disposing_fail E _ h)
  · obtain ⟨_, _, h⟩ := h
    exact h

end Methods

/-! ### Every interleaving -/

/-- The calls on the run of an external job. -/
inductive JobCall (w : Writing) (runId : String) (cases : List String) : Method View → Prop where
  | executeExternalJob {run : Run} (h : caseIds run = cases) : JobCall w runId cases (executeExternalJob w runId run)
  | cancel (reason : Json) : JobCall w runId cases (cancel runId reason)
  | markUnsupported (code : String) (message : Option String) :
      JobCall w runId cases (markUnsupported runId code message)
  | markProfileStale (reason : Option String) : JobCall w runId cases (markProfileStale runId reason)
  | failOrQuarantine (e : Exn) : JobCall w runId cases (failOrQuarantine runId e)
  | rescore : JobCall w runId cases (rescore runId)

theorem JobCall.disposing (E : P.EndLaws) {w : Writing} {x : Method View} (h : JobCall w runId cases x) {s : σ}
    (hs : Intact P L runId cases s) : Disposing P L runId cases x [] s (fun _ _ _ => True) := by
  have hkeeps : Disposing P L runId cases x [] s (fun _ _ => Intact P L runId cases) := by
    cases h with
    | executeExternalJob hrun => exact disposing_executeExternalJob E hrun hs
    | cancel reason => exact disposing_cancel E reason false hs
    | markUnsupported code message => exact disposing_markUnsupported E code message hs
    | markProfileStale reason => exact disposing_markProfileStale E reason hs
    | failOrQuarantine e => exact disposing_failOrQuarantine E e hs
    | rescore => exact disposing_intact E (steady_rescore runId) hs
  exact hkeeps.mono (fun _ _ _ _ => trivial)

variable {ι : Type} [DecidableEq ι] (P runId cases)

/-- The call of a move, if it makes one, is covered. -/
def CoveredMove (c : Clients σ ι) (move : ClientMove ι) : Prop :=
  (c.called move).all (fun q => decide (Covered P runId cases c.state q)) = true

instance (c : Clients σ ι) (move : ClientMove ι) : Decidable (CoveredMove P runId cases c move) :=
  inferInstanceAs (Decidable (_ = true))

/-- Every selected case has exactly one row. -/
def Accounted (s : σ) : Prop :=
  ∀ caseId ∈ cases, ((rowsOf (P.caseRuns s) runId).filter (fun row => row.caseId = caseId)).length = 1

instance (s : σ) : Decidable (Accounted P runId cases s) := inferInstanceAs (Decidable (∀ _ ∈ cases, _))

/-- In every state that the moves reach, a run that has ended has a row for each case. -/
def CasesAccounted (s : σ) (moves : List (ClientMove ι)) : Prop :=
  ∀ before after, moves = before ++ after →
    disposed (statusAt P (run (clientStep P) (idle s) before).state runId) = true →
      Accounted P runId cases (run (clientStep P) (idle s) before).state

/-- What holds between the moves. -/
structure Accountable (L : P.RunLaws) (c : Clients σ ι) : Prop where
  intact : Intact P L runId cases c.state
  complete : disposed (statusAt P c.state runId) = true → Complete P runId cases c.state
  safe : c.Safe P.answer (Steps P L runId cases) (fun _ e => Disposes P L runId cases e)

variable {P runId cases}

theorem accountable_step (E : P.EndLaws) {w : Writing} {c : Clients σ ι} {move : ClientMove ι}
    (h : Accountable P runId cases L c) (covered : CoveredMove P runId cases c move)
    (calls : ∀ i x, move = .start i x → JobCall w runId cases x) :
    Accountable P runId cases L (clientStep P move c) := by
  obtain ⟨hsafe, hstep⟩ := Callers.safe_step Steps.refl (fun _ _ _ => Steps.trans) (fun _ _ he => he.steps) h.safe
    (fun i x hx => (calls i x hx).disposing E h.intact)
  rcases hstep with hstate | ⟨past, o, q, hq, hdisposes, hstate⟩
  · have hstate : (clientStep P move c).state = c.state := hstate
    exact ⟨hstate ▸ h.intact, by rw [hstate]; exact h.complete, hsafe⟩
  · have hstate : (clientStep P move c).state = (P.answer o q c.state).2 := hstate
    refine ⟨hstate ▸ hdisposes.steps.intact h.intact, fun hend => ?_, hsafe⟩
    have hcovered : Covered P runId cases c.state q := by simpa [CoveredMove, hq] using covered
    rw [hstate] at hend ⊢
    rcases hdisposes.rows h.intact hcovered hend with hbefore | hcomplete
    · exact (h.complete hbefore).kept hdisposes.steps.rows
    · exact hcomplete

theorem accountable_run (E : P.EndLaws) {w : Writing} {c : Clients σ ι} {moves : List (ClientMove ι)}
    (h : Accountable P runId cases L c) (covered : Along (clientStep P) (CoveredMove P runId cases) c moves)
    (calls : ∀ i x, .start i x ∈ moves → JobCall w runId cases x) :
    Accountable P runId cases L (run (clientStep P) c moves) := by
  induction moves generalizing c with
  | nil => exact h
  | cons move rest ih =>
    have hstep := accountable_step E h covered.1 (fun i x hx => calls i x (hx ▸ List.mem_cons_self))
    exact ih hstep covered.2 (fun i x hx => calls i x (List.mem_cons_of_mem move hx))

/-- Rows that are stored under their own case are one for each case. -/
theorem rowsOf_single {rows : CaseRuns} (keyed : Keyed rows) {caseId : String}
    (h : ∃ row ∈ rowsOf rows runId, row.caseId = caseId) :
    ((rowsOf rows runId).filter (fun row => row.caseId = caseId)).length = 1 := by
  set entries := (rows.rows.filter (fun row => row.1.1 = runId)).filter (fun row => row.2.2.caseId = caseId) with hentries
  have hlength : ((rowsOf rows runId).filter (fun row => row.caseId = caseId)).length = (entries.map Prod.fst).length := by
    simp only [rowsOf, List.filter_map, List.length_map]
    rfl
  have hkeys : ∀ key ∈ entries.map Prod.fst, key = (runId, caseId) := by
    intro key hkey
    obtain ⟨⟨key', found⟩, hmem, rfl⟩ := List.mem_map.1 hkey
    simp only [hentries, List.mem_filter, decide_eq_true_eq] at hmem
    obtain ⟨⟨hmem, hrun⟩, hcase⟩ := hmem
    have hkey' := keyed _ _ (Table.get_of_mem hmem)
    exact Prod.ext hrun ((congrArg Prod.snd hkey').trans hcase)
  have hnodup : (entries.map Prod.fst).Nodup :=
    rows.nodup.sublist ((List.filter_sublist.trans List.filter_sublist).map Prod.fst)
  rw [List.eq_replicate_of_mem hkeys, List.nodup_replicate] at hnodup
  obtain ⟨row, hrow, hcase⟩ := h
  have hmem : row ∈ (rowsOf rows runId).filter (fun row => row.caseId = caseId) :=
    List.mem_filter.2 ⟨hrow, decide_eq_true hcase⟩
  have hpos := List.length_pos_of_mem hmem
  omega

theorem casesAccounted (E : P.EndLaws) {w : Writing} {s : σ} {moves : List (ClientMove ι)}
    (hs : Intact P L runId cases s) (hopen : disposed (statusAt P s runId) = false)
    (covered : Along (clientStep P) (CoveredMove P runId cases) (idle s) moves)
    (calls : ∀ i x, .start i x ∈ moves → JobCall w runId cases x) : CasesAccounted P runId cases s moves := by
  intro before after hsplit hend
  subst hsplit
  have hidle : Accountable P runId cases L (idle s : Clients σ ι) :=
    ⟨hs, fun h => (Bool.false_ne_true (hopen.symm.trans h)).elim, fun _ => ⟨[], trivial⟩⟩
  have hreached := accountable_run E hidle (along_append.1 covered).1
    (fun i x hx => calls i x (List.mem_append_left _ hx))
  exact fun caseId hid => rowsOf_single hreached.intact.keyed (hreached.complete hend caseId hid)

end System

/-- For any number of clients that dispatch, cancel, refuse or rescore the run of an
external job on either store, in any order of their calls and with any behaviour of the
job: as long as every bare change of status that ends the run finds the rows of its
cases, a run that has ended has exactly one row for each selected case. -/
theorem selected_cases_accounted {ι : Type} [DecidableEq ι] (w : Writing) (runId : String) (cases : List String)
    (s : Memory.Store) (db : Sqlite.Database) (moves : List (ClientMove ι))
    (hs : Intact memory memoryLaws runId cases s) (hdb : Intact sqlite sqliteLaws runId cases db)
    (opened : disposed (statusAt memory s runId) = false ∧ disposed (statusAt sqlite db runId) = false)
    (calls : ∀ i x, .start i x ∈ moves → JobCall w runId cases x) :
    (Along (clientStep memory) (CoveredMove memory runId cases) (idle s) moves →
      CasesAccounted memory runId cases s moves) ∧
    (Along (clientStep sqlite) (CoveredMove sqlite runId cases) (idle db) moves →
      CasesAccounted sqlite runId cases db moves) :=
  ⟨fun covered => casesAccounted memoryEnds hs opened.1 covered calls,
    fun covered => casesAccounted sqliteEnds hdb opened.2 covered calls⟩

/-! ### A job that raises -/

/-- The only case failed, and the job says so. -/
def failedOutcome : Json := .obj [("job_status", .str "settled"), ("results", .arr [failedReport])]

/-- The dispatch of the run of one case, with what its job returns or raises. -/
def dispatchOne (entry : Except Exn Json) : List (ClientMove Bool) :=
  .start true (executeExternalJob plainWriting "run" oneCaseRun) :: List.replicate 39 (.act true {jobEntry := entry})

def oneCaseDatabase : Sqlite.Database := run Sqlite.step ∅ [.run (.create oneCaseRun.input none)]

theorem failed_case_accounted :
    CasesAccounted memory "run" ["case"] oneCaseStore (dispatchOne (.ok failedOutcome)) ∧
    CasesAccounted sqlite "run" ["case"] oneCaseDatabase (dispatchOne (.ok failedOutcome)) ∧
    statusAt memory (run (clientStep memory) (idle oneCaseStore) (dispatchOne (.ok failedOutcome))).state "run" =
      some "failed" := by
  have keyed : KeyedRuns oneCaseStore.run := by
    show memoryRuns.Sound (run memoryRuns.step ∅ [.run (.create oneCaseRun.input none)])
    exact RunSystem.sound_run (fun _ _ h => nomatch h) ⟨trivial, trivial⟩
  have columns : Sqlite.Columns oneCaseDatabase.toRunLog := by
    show sqliteRuns.Sound (run sqliteRuns.step ∅ [.run (.create oneCaseRun.input none)])
    exact RunSystem.sound_run (fun _ _ h => nomatch h) ⟨trivial, trivial⟩
  have hs : Intact memory memoryLaws "run" ["case"] oneCaseStore := ⟨keyed, nofun, by decide +kernel⟩
  have hdb : Intact sqlite sqliteLaws "run" ["case"] oneCaseDatabase :=
    ⟨columns, nofun, by decide +kernel⟩
  have calls : ∀ i x, .start i x ∈ dispatchOne (.ok failedOutcome) → JobCall plainWriting "run" ["case"] x := by
    intro i x hx
    rcases List.mem_cons.1 hx with h | h
    · cases h
      exact .executeExternalJob (by decide +kernel)
    · cases List.eq_of_mem_replicate h
  obtain ⟨hmemory, hsqlite⟩ := selected_cases_accounted plainWriting "run" ["case"] oneCaseStore oneCaseDatabase
    (dispatchOne (.ok failedOutcome)) hs hdb ⟨by decide +kernel, by decide +kernel⟩ calls
  exact ⟨hmemory (by decide +kernel), hsqlite (by decide +kernel), by decide +kernel⟩

theorem raised_job_unaccounted :
    statusAt memory (run (clientStep memory) (idle oneCaseStore) (dispatchOne (.error (.value "no runner")))).state
      "run" = some "failed" ∧
    ¬CasesAccounted memory "run" ["case"] oneCaseStore (dispatchOne (.error (.value "no runner"))) := by
  have hfailed : statusAt memory (run (clientStep memory) (idle oneCaseStore)
      (dispatchOne (.error (.value "no runner")))).state "run" = some "failed" := by
    decide +kernel
  refine ⟨hfailed, fun h => ?_⟩
  have hrows := h _ [] (List.append_nil _).symm (by rw [hfailed]; decide) "case" List.mem_cons_self
  exact absurd hrows (by decide +kernel)

end Motte.Service
