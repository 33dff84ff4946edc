import Motte.Experiment.InitialRuns
import Mathlib.Data.List.Range

/-! Retries of a cell.

A retry creates a run whose number is one more than the runs that the cell lists, and
then lists it. As long as no call ends between the two, the runs that are there are those
that are listed, and the next number is free. A call that ends there leaves a run that no
later call can list: each tries to create it again, and is refused. -/
namespace Motte.Experiment
open Foundation Storage Service

/-! ### Numbered ids -/

theorem toString_injective {m n : Nat} (h : toString m = toString n) : m = n := by
  rw [Nat.toString_eq_ofList_toDigits, Nat.toString_eq_ofList_toDigits] at h
  have digits : Nat.toDigits 10 m = Nat.toDigits 10 n := String.ofList_injective h
  rw [← Nat.ofDigitChars_toDigits (b := 10) (n := m) (by decide) (by decide), digits,
    Nat.ofDigitChars_toDigits (by decide) (by decide)]

theorem retryRunId_injective {rid : String} {m n : Nat} (h : retryRunId rid m = retryRunId rid n) : m = n := by
  have hnumber : toString (m + 1) = toString (n + 1) := by
    have hlist := congrArg String.toList h
    simp only [retryRunId, String.toList_append] at hlist
    exact String.toList_injective (List.append_cancel_left hlist)
  exact Nat.succ.inj (toString_injective hnumber)

theorem retryRunId_nonBlank (rid : String) (n : Nat) : nonBlank (retryRunId rid n) = true := by
  have hyphen : '-' ∈ (retryRunId rid n).toList := by
    rw [retryRunId, String.toList_append, String.toList_append]
    exact List.mem_append_left _ (List.mem_append_right _ (by decide))
  rw [nonBlank, Bool.not_eq_true', List.all_eq_false]
  exact ⟨'-', hyphen, by decide⟩

/-- The ids of the first retries. -/
def retryRunIds (rid : String) (n : Nat) : List String := (List.range n).map (retryRunId rid)

theorem length_retryRunIds (rid : String) (n : Nat) : (retryRunIds rid n).length = n := by
  rw [retryRunIds, List.length_map, List.length_range]

theorem nodup_retryRunIds (rid : String) (n : Nat) : (retryRunIds rid n).Nodup :=
  List.nodup_range.map (fun _ _ => retryRunId_injective)

theorem mem_retryRunIds {rid : String} {n k : Nat} : retryRunId rid k ∈ retryRunIds rid n ↔ k < n := by
  rw [retryRunIds, List.mem_map]
  constructor
  · rintro ⟨j, hj, heq⟩
    rw [← retryRunId_injective heq]
    exact List.mem_range.1 hj
  · exact fun hk => ⟨k, List.mem_range.2 hk, rfl⟩

theorem retryRunIds_succ (rid : String) (n : Nat) : retryRunIds rid (n + 1) = retryRunIds rid n ++ [retryRunId rid n] := by
  rw [retryRunIds, List.range_succ, List.map_append]
  rfl

/-! ### The list of a cell -/

/-- The runs that a cell lists. -/
def Lists (c : Document) (listed : List String) : Prop := c.get "superseding_run_ids" = some (.arr (listed.map .str))

theorem superseding_of_lists {c : Document} {listed : List String} (h : Lists c listed) :
    superseding c = .ok (listed.map .str) := by
  rw [superseding, Document.getOrNull, h]
  cases listed with
  | nil => rfl
  | cons first rest => rfl

theorem recording_of_lists {c : Document} {listed : List String} {run : String} (h : Lists c listed) (fresh : run ∉ listed) :
    recording run c = .ok (c.set "superseding_run_ids" (.arr ((listed ++ [run]).map .str))) := by
  have unknown : ((listed.map Value.str).any (fun v => v.equals (.str run))) = false := by
    rw [List.any_map, List.any_eq_false]
    intro other hother
    have differ : other ≠ run := fun heq => fresh (heq ▸ hother)
    simp [Value.equals, Value.canon, Value.alike, differ]
  rw [recording, superseding_of_lists h]
  show Except.ok _ = Except.ok _
  rw [unknown, if_neg (by decide), List.map_append]
  rfl

theorem runId_recording {c c' : Document} {run : String} (h : recording run c = .ok c') : runId c' = runId c := by
  simp only [recording, except_bind_ok_iff, Except.ok.injEq] at h
  obtain ⟨listed, -, rfl⟩ := h
  exact Table.get_set_ne _ _ (by decide)

/-- A run that counts is the run of the cell. -/
theorem runId_of_ownedRun {c : Document} {original : String} (h : ownedRun c = some original) :
    runId c = some (.str original) := by
  unfold ownedRun at h
  split at h
  · rename_i run hrun
    split at h
    · cases h
    · cases h
      exact hrun
  · cases h

theorem ownedRun_congr {c c' : Document} {original : String} (h : ownedRun c = some original)
    (same : runId c' = some (.str original)) : ownedRun c' = some original := by
  rw [ownedRun, runId_of_ownedRun h] at h
  rw [ownedRun, same]
  exact h

/-- Nothing outside the stores raises. -/
structure Chance.Fine (o : Chance) : Prop where
  answers : ∀ e, o.readSpec ≠ .error e ∧ o.admission ≠ .error e ∧ o.replayCases ≠ .error e ∧ o.refreeze ≠ .error e ∧
    o.validate ≠ .error e ∧ o.ensurePlans ≠ .error e
  faults : o.createFault = none ∧ o.readFault = none

/-! ### Between two calls -/

/-- Whether a run is there that is not listed, after one more call. -/
def noted {τ : Type} (unlisted : Bool) : Exchange τ Inquiry Finding Exn → Bool
  | ⟨_, .createRun _ _, .ok _, _⟩ => true
  | ⟨_, .cells (.recordSuperseding _ _), .ok _, _⟩ => false
  | _ => unlisted

/-- The calls created a run last, and have not listed it. -/
def dangling {τ : Type} (calls : List (Exchange τ Inquiry Finding Exn)) : Bool := calls.foldl noted false

theorem dangling_append {τ : Type} {past calls : List (Exchange τ Inquiry Finding Exn)} (h : dangling past = false) :
    dangling (past ++ calls) = dangling calls := by
  rw [dangling, List.foldl_append, ← dangling, h, dangling]

/-- A cell that is retried. -/
structure Target where
  id : String
  runId : String
  /-- its initial run -/
  original : String
  named : deterministicRunId id = .ok runId

namespace Deployment
variable {σ ρ : Type} (D : Deployment σ ρ) (x : Target)

/-- The cells stay as they are, and so do the runs that are there, with their cases: what others do between two calls. -/
def Calm (s t : Lab σ ρ) : Prop :=
  t.experiments = s.experiments ∧
    ∀ runId, (D.platform.runAt t.platform runId).map caseIds = (D.platform.runAt s.platform runId).map caseIds

/-- The cell lists its first `n` retries; these are there, and one more if it is unlisted. -/
structure Retried (n : Nat) (unlisted : Bool) (s : Lab σ ρ) : Prop where
  inv : D.Inv s.experiments
  /-- The cell is allocated: it has an initial run, whose cases are told apart. -/
  cell : ∃ c, D.cellAt s x.id = some c ∧ (∃ stored, D.store.specAt s.experiments (cellKey c) = some stored) ∧
    ownedRun c = some x.original ∧ Lists c (retryRunIds x.runId n)
  run : ∃ run, D.platform.runAt s.platform x.original = some run ∧ (caseIds run).Nodup
  live : ∀ k, D.live s (retryRunId x.runId k) = true ↔ k < n + unlisted.toNat

/-- What holds after the calls so far. -/
def Trying (past : List (Exchange (Lab σ ρ) Inquiry Finding Exn)) (s : Lab σ ρ) : Prop :=
  ∃ n, D.Retried x n (dangling past) s

section
variable {D x} {s t : Lab σ ρ} {n : Nat} {unlisted : Bool} {past : List (Exchange (Lab σ ρ) Inquiry Finding Exn)}

theorem Calm.refl (s : Lab σ ρ) : D.Calm s s := ⟨rfl, fun _ => rfl⟩

theorem Calm.live (h : D.Calm s t) (runId : String) : D.live t runId = D.live s runId := by
  have hsome := congrArg Option.isSome (h.2 runId)
  rwa [Option.isSome_map, Option.isSome_map] at hsome

theorem Calm.retried (h : D.Calm s t) (hs : D.Retried x n unlisted s) : D.Retried x n unlisted t := by
  obtain ⟨c, hc, hspec, howned, hlists⟩ := hs.cell
  obtain ⟨run, hrun, nodup⟩ := hs.run
  have hcases := h.2 x.original
  rw [hrun, Option.map_some, Option.map_eq_some_iff] at hcases
  obtain ⟨run', hrun', hcases⟩ := hcases
  refine ⟨h.1 ▸ hs.inv, ⟨c, ?_, ?_, howned, hlists⟩, ⟨run', hrun', hcases ▸ nodup⟩, fun k => ?_⟩
  · rw [Deployment.cellAt, h.1]
    exact hc
  · rw [h.1]
    exact hspec
  · rw [h.live]
    exact hs.live k

/-- The state tells how many runs are listed, and whether there is one more. -/
theorem Retried.unique {m : Nat} {other : Bool} (h : D.Retried x n unlisted s) (h' : D.Retried x m other s) :
    unlisted = other := by
  have hnm : n = m := by
    obtain ⟨c, hc, _, _, hlists⟩ := h.cell
    obtain ⟨c', hc', _, _, hlists'⟩ := h'.cell
    cases hc.symm.trans hc'
    have hlength := congrArg List.length (Value.arr.inj (Option.some.inj (hlists.symm.trans hlists')))
    rwa [List.length_map, List.length_map, length_retryRunIds, length_retryRunIds] at hlength
  subst hnm
  have next : n < n + unlisted.toNat ↔ n < n + other.toNat := (h.live n).symm.trans (h'.live n)
  cases unlisted <;> cases other <;> simp at next ⊢

theorem Trying.dangling (h : D.Trying x past s) (hs : D.Retried x n unlisted s) : dangling past = unlisted :=
  h.elim (fun _ h => h.unique hs)

/-- One call more. -/
theorem Trying.next (h : D.Trying x past s) (hs : D.Retried x n unlisted s)
    {c : Exchange (Lab σ ρ) Inquiry Finding Exn} {m : Nat} (ht : D.Retried x m (noted unlisted c) t) :
    D.Trying x (past ++ [c]) t := by
  refine ⟨m, ?_⟩
  rw [Experiment.dangling, List.foldl_append, ← Experiment.dangling, h.dangling hs]
  exact ht

end

/-! ### Calls -/

variable {Ω : Type} (chance : Ω → Chance)

/-- The server of calls that meet what is chosen from these chances. -/
def tryServe (o : Ω) (q : Inquiry) : Op (Lab σ ρ) Exn (Finding q) := D.serve (chance o) q

/-- The script, from a state on. -/
def Tries {α : Type} (script : Procedure α) (s : Lab σ ρ) (Φ : Except Exn α → Lab σ ρ → Prop) : Prop :=
  script.Keeps (D.tryServe chance) D.Calm (D.Trying x) s Φ

section
variable {D x} {Ω : Type} {chance : Ω → Chance} {s : Lab σ ρ} {n : Nat} {unlisted : Bool}

/-- A call that leaves the state as it is. -/
theorem tries_read {q : Inquiry} {Φ : Except Exn (Finding q) → Lab σ ρ → Prop} (hs : D.Retried x n unlisted s)
    (same : ∀ o t, (D.serve o q t).2 = t) (quiet : ∀ (t u : Lab σ ρ) a, noted unlisted ⟨t, q, a, u⟩ = unlisted)
    (h : ∀ t (o : Ω), D.Retried x n unlisted t → D.Calm s t → Φ (D.serve (chance o) q t).1 t) :
    D.Tries x chance (inquire q) s Φ := by
  refine Script.keeps_call (fun past t trying hst o => ?_)
  have hsame : (D.tryServe chance o q t).2 = t := same (chance o) t
  have ht := hst.retried hs
  rw [hsame]
  refine ⟨trying.next hs (m := n) ?_, h t o ht hst⟩
  rw [Script.served, quiet]
  exact ht

/-- What is known after a call that decides nothing. -/
def Steady (D : Deployment σ ρ) (x : Target) {Ω : Type} (chance : Ω → Chance) (n : Nat) (unlisted : Bool) {α : Type} (r : Except Exn α)
    (t : Lab σ ρ) : Prop :=
  D.Retried x n unlisted t ∧ ∀ e, r = .error e → ¬∀ o, (chance o).Fine

theorem tries_steady {q : Inquiry} (hs : D.Retried x n unlisted s) (same : ∀ o t, (D.serve o q t).2 = t)
    (quiet : ∀ (t u : Lab σ ρ) a, noted unlisted ⟨t, q, a, u⟩ = unlisted)
    (fine : ∀ o t e, o.Fine → (D.serve o q t).1 ≠ .error e) :
    D.Tries x chance (inquire q) s (D.Steady x chance n unlisted) :=
  tries_read hs same quiet (fun t o ht _ => ⟨ht, fun e he allFine => fine (chance o) t e (allFine o) he⟩)

theorem serve_getCell (o : Chance) (t : Lab σ ρ) (cellId : String) :
    D.serve o (.cells (.getCell cellId)) t = ((.ok (.found (D.cellAt t cellId)) : Except Exn CellReply), t) := by
  show onExperiments (Op.mapErr CellError.exn (D.store.serve (.getCell cellId))) t = _
  simp [onExperiments, Op.zoom, Op.mapErr, D.lawful.getCell, Deployment.cellAt]

theorem serve_getSpec (o : Chance) (t : Lab σ ρ) (experimentId version : String) :
    D.serve o (.cells (.getSpec experimentId version)) t =
      ((.ok (.found (D.store.specAt t.experiments (experimentId, version))) : Except Exn CellReply), t) := by
  show onExperiments (Op.mapErr CellError.exn (D.store.serve (.getSpec experimentId version))) t = _
  simp [onExperiments, Op.zoom, Op.mapErr, D.lawful.getSpec]

theorem tries_getCell (hs : D.Retried x n unlisted s) :
    D.Tries x chance (getCell x.id) s (fun r t => D.Retried x n unlisted t ∧ r = .ok (D.cellAt t x.id)) := by
  refine (tries_read (q := .cells (.getCell x.id)) (Φ := fun r t => D.Retried x n unlisted t ∧
    r = .ok (.found (D.cellAt t x.id))) hs (fun o t => by rw [serve_getCell]) (fun _ _ _ => rfl) (fun t o ht _ => ?_)).bind
    (fun reply t h => ?_) (fun e t h => by cases h.2)
  · rw [serve_getCell]
    exact ⟨ht, rfl⟩
  · obtain ⟨ht, hreply⟩ := h
    cases hreply
    exact Script.keeps_done ⟨ht, rfl⟩

theorem tries_getSpec (hs : D.Retried x n unlisted s) (experimentId version : String) :
    D.Tries x chance (getSpec experimentId version) s (fun r t => D.Retried x n unlisted t ∧
      r = .ok (D.store.specAt s.experiments (experimentId, version))) := by
  refine (tries_read (q := .cells (.getSpec experimentId version)) (Φ := fun r t => D.Retried x n unlisted t ∧
    r = .ok (.found (D.store.specAt s.experiments (experimentId, version)))) hs (fun o t => by rw [serve_getSpec])
    (fun _ _ _ => rfl) (fun t o ht hst => ?_)).bind (fun reply t h => ?_) (fun e t h => by cases h.2)
  · rw [serve_getSpec, hst.1]
    exact ⟨ht, rfl⟩
  · obtain ⟨ht, hreply⟩ := h
    cases hreply
    exact Script.keeps_done ⟨ht, rfl⟩

/-- The next retry is there. -/
theorem Retried.born (hs : D.Retried x n false s) {t : Lab σ ρ} (experiments : t.experiments = s.experiments)
    (born : D.live t (retryRunId x.runId n)) (others : ∀ other, other ≠ retryRunId x.runId n →
      D.platform.runAt t.platform other = D.platform.runAt s.platform other) : D.Retried x n true t := by
  have unborn : D.live s (retryRunId x.runId n) ≠ true := fun h => absurd ((hs.live n).1 h) (lt_irrefl n)
  obtain ⟨c, hc, hspec, howned, hlists⟩ := hs.cell
  obtain ⟨run, hrun, nodup⟩ := hs.run
  have hne : x.original ≠ retryRunId x.runId n := by
    intro heq
    rw [Deployment.live, ← heq, hrun] at unborn
    exact unborn rfl
  refine ⟨experiments ▸ hs.inv, ⟨c, ?_, ?_, howned, hlists⟩, ⟨run, (others _ hne).trans hrun, nodup⟩, fun k => ?_⟩
  · rw [Deployment.cellAt, experiments]
    exact hc
  · rw [experiments]
    exact hspec
  · by_cases hk : k = n
    · subst hk
      exact iff_of_true born (Nat.lt_succ_self k)
    · have hlive : D.live t (retryRunId x.runId k) = D.live s (retryRunId x.runId k) := by
        rw [Deployment.live, Deployment.live, others _ (fun heq => hk (retryRunId_injective heq))]
      rw [hlive, hs.live k]
      show k < n + 0 ↔ k < n + 1
      omega

/-- The run of the next retry is created, where it is not there already. -/
theorem tries_create (accepting : Accepting D.platform) (hs : D.Retried x n unlisted s) {run : RunInput} {event : Event}
    (hid : run.id = retryRunId x.runId n) (wellFormed : ∃ u, newRun run = .ok u)
    (ownEvent : ∃ u, validateEvent (some event) run.id = .ok u) :
    D.Tries x chance (inquire (.createRun run event)) s (fun r t =>
      (r = .ok () → unlisted = false ∧ D.Retried x n true t) ∧ ∀ e, r = .error e → unlisted = false → ¬∀ o, (chance o).Fine) := by
  refine Script.keeps_served (fun past t trying hst o => ?_)
  have ht := hst.retried hs
  show Op.wp (α := Unit) (faulty (chance o).createFault (do
    let _ ← onPlatform (Op.mapErr .store (D.platform.serve (.run (.create run (some event)))))
    return ())) t _ _
  unfold faulty
  split
  · rename_i e hfault
    refine ⟨trying.next hs (m := n) ht, fun h => (by cases h), fun _ _ _ allFine => ?_⟩
    rw [(allFine o).faults.1] at hfault
    cases hfault
  · unfold onPlatform
    refine Op.wp_bind.2 (Op.wp_zoom.2 (Op.wp_mapErr.2 ?_))
    refine Op.wp_mono (Op.wp_and (D.creating.create run (some event) t.platform)
      (accepting.create run (some event) t.platform)) (fun _ u hu => ?_) (fun e u hu => ?_)
    · obtain ⟨⟨hfree, hnew, hothers⟩, -⟩ := hu
      have hlisted : unlisted = false := by
        cases unlisted with
        | false => rfl
        | true =>
          have hlive := (ht.live n).2 (Nat.lt_succ_self n)
          rw [Deployment.live, ← hid, hfree] at hlive
          cases hlive
      subst hlisted
      have hborn : D.Retried x n true { t with platform := u } := by
        refine ht.born rfl ?_ (fun other hne => hothers other (hid ▸ hne))
        rw [Deployment.live, ← hid, hnew]
        rfl
      exact ⟨trying.next hs (m := n) hborn, fun _ => ⟨rfl, hborn⟩, fun _ h => (by cases h)⟩
    · obtain ⟨⟨hsame, -⟩, hrefused⟩ := hu
      have hcalm : D.Calm t { t with platform := u } := ⟨rfl, fun runId => by rw [hsame runId]⟩
      refine ⟨trying.next hs (m := n) (hcalm.retried ht), fun h => (by cases h), fun _ _ hlisted => ?_⟩
      exfalso
      subst hlisted
      rcases hrefused with htaken | ⟨-, ⟨e', he'⟩ | ⟨e', he'⟩⟩
      · rw [hid] at htaken
        exact absurd ((ht.live n).1 htaken) (lt_irrefl n)
      · obtain ⟨u', hu'⟩ := wellFormed
        cases hu'.symm.trans he'
      · obtain ⟨u', hu'⟩ := ownEvent
        cases hu'.symm.trans he'

/-- The retry is listed. -/
theorem tries_record (hs : D.Retried x n true s) :
    D.Tries x chance (change (.recordSuperseding x.id (retryRunId x.runId n))) s
      (fun r t => r = .ok () ∧ D.Retried x (n + 1) false t) := by
  have asked : D.Tries x chance (inquire (.cells (.recordSuperseding x.id (retryRunId x.runId n)))) s
      (fun r t => (∃ reply, r = .ok reply) ∧ D.Retried x (n + 1) false t) := by
    refine Script.keeps_served (fun past t trying hst o => ?_)
    have ht := hst.retried hs
    obtain ⟨c, hc, ⟨stored, hspec⟩, howned, hlists⟩ := ht.cell
    have fresh : retryRunId x.runId n ∉ retryRunIds x.runId n := fun h => absurd (mem_retryRunIds.1 h) (lt_irrefl n)
    have hrecord := recording_of_lists hlists fresh
    rw [← retryRunIds_succ] at hrecord
    show Op.wp (α := CellReply) (onExperiments (Op.mapErr CellError.exn
      (D.store.serve (.recordSuperseding x.id (retryRunId x.runId n))))) t _ _
    unfold onExperiments
    refine Op.wp_zoom.2 (Op.wp_mapErr.2 ?_)
    refine Op.wp_mono (Op.wp_and (D.lawful.mutates _ x.id _ t.experiments rfl)
      (Op.wp_of_state (D.lawful.keeps (.recordSuperseding x.id (retryRunId x.runId n)) t.experiments ht.inv)))
      (fun reply u hu => ?_) (fun e u hu => ?_)
    · obtain ⟨⟨d, c', hd, hmutate, hspecs, hcells⟩, hinv⟩ := hu
      cases hc.symm.trans hd
      have hlists' : Lists c' (retryRunIds x.runId (n + 1)) := by
        rw [← Except.ok.inj (hrecord.symm.trans hmutate)]
        exact Table.get_set_self ..
      have changed : Changed (.getCell x.id) x.id c c' := changed_recording _ hmutate
      have hreads := D.lawful.reading
      have hrecorded : D.Retried x (n + 1) false { t with experiments := u } := by
        refine ⟨hinv, ⟨D.reads c', ?_, ⟨stored, ?_⟩, ?_, hreads.texts _ _ _ hlists'⟩, ht.run, fun k => ht.live k⟩
        · rw [Deployment.cellAt, hcells, Function.update_self]
        · rw [cellKey_reads hreads, cellKey_changed changed, hspecs]
          exact hspec
        · refine ownedRun_congr howned ((runId_reads hreads).2 ?_)
          rw [runId_recording hmutate]
          exact runId_of_ownedRun howned
      exact ⟨trying.next hs (m := n + 1) hrecorded, ⟨reply, rfl⟩, hrecorded⟩
    · obtain ⟨⟨-, herror⟩, -⟩ := hu
      cases (herror c hc).symm.trans hrecord
  refine asked.bind (fun reply t h => Script.keeps_done ⟨rfl, h.2⟩) (fun e t h => ?_)
  obtain ⟨reply, hreply⟩ := h.1
  cases hreply

theorem error_of_faulty {τ α : Type} {fault : Option Exn} {x : Op τ Exn α} {t : τ} {e : Exn} (hfault : fault = none)
    (h : (faulty fault x t).1 = .error e) : (x t).1 = .error e := by
  rcases faulty_error h with h | h
  · rw [hfault] at h
    cases h
  · exact h

/-- What `create_run` asks once the run is there. -/
theorem tries_after (hs : D.Retried x n true s) (run : RunInput) :
    D.Tries x chance (do
      Script.when (trialShaped (run.stored 1) = true) (inquire (.ensurePlans run))
      let _ : Unit ← inquire (.notify (retryRunId x.runId n))
      inquire (.view (retryRunId x.runId n))) s (D.Steady x chance n true) := by
  have plans : D.Tries x chance (Script.when (trialShaped (run.stored 1) = true) (inquire (.ensurePlans run))) s
      (D.Steady x chance n true) := by
    refine Script.keeps_ite (fun _ => ?_) (fun _ => Script.keeps_done ⟨hs, fun _ h => (by cases h)⟩)
    exact tries_steady hs (fun _ _ => rfl) (fun _ _ _ => rfl) (fun o _ e ho => (ho.answers e).2.2.2.2.2)
  refine plans.bind (fun _ t ht => ?_) (fun e t ht => ⟨ht.1, fun e' _ => ht.2 e rfl⟩)
  refine (tries_steady (q := .notify (retryRunId x.runId n)) ht.1 (fun o _ => faulty_state (fun _ => rfl) _) (fun _ _ _ => rfl)
    (fun o t e ho he => ?_)).bind (fun _ t ht => ?_) (fun e t ht => ⟨ht.1, fun e' _ => ht.2 e rfl⟩)
  · cases error_of_faulty ho.faults.2 he
  · refine tries_read (q := .view (retryRunId x.runId n)) ht.1 (fun o _ => faulty_state (viewed_state _) _) (fun _ _ _ => rfl)
      (fun t o ht _ => ⟨ht, fun e he allFine => ?_⟩)
    have hlive : D.live t (retryRunId x.runId n) = true := (ht.live n).2 (Nat.lt_succ_self n)
    exact viewed_error hlive (error_of_faulty (allFine o).faults.2 he)

theorem newRun_newRunRecord (scenario : String) (prepared : Prepared) (selected : List String) {runId : String}
    (h : nonBlank runId = true) (parent : Option String) (now : Timestamp) :
    ∃ u, newRun (newRunRecord scenario prepared selected runId parent now) = .ok u := by
  have named : (newRunRecord scenario prepared selected runId parent now).id ≠ "" := by
    rintro (heq : runId = "")
    subst heq
    exact absurd h (by decide)
  refine ⟨(newRunRecord scenario prepared selected runId parent now).stored 1, ?_⟩
  rw [newRun, ensure, if_pos named]
  rfl

theorem validateEvent_queued (runId : String) :
    ∃ u, validateEvent (some ⟨some runId, "queued", (∅ : Fields).insert "status" (.str "queued")⟩) runId = .ok u := by
  have typed : "queued" ≠ "" := by decide
  refine ⟨some ⟨some runId, "queued", (∅ : Fields).insert "status" (.str "queued")⟩, ?_⟩
  simp only [validateEvent, ensure]
  rw [if_pos ⟨rfl, typed⟩]
  rfl

/-- How the creation of the next retry ends: with its run, or, if that is there already, with an exception. -/
def Created (D : Deployment σ ρ) (x : Target) {Ω : Type} (chance : Ω → Chance) (n : Nat) (unlisted : Bool) {α : Type} (r : Except Exn α)
    (t : Lab σ ρ) : Prop :=
  (∀ a, r = .ok a → unlisted = false ∧ D.Retried x n true t) ∧ ∀ e, r = .error e → unlisted = false → ¬∀ o, (chance o).Fine

theorem Created.error {α : Type} {e : Exn} {t : Lab σ ρ} (h : ¬∀ o, (chance o).Fine) :
    D.Created x chance n unlisted (.error e : Except Exn α) t :=
  ⟨fun _ h => (by cases h), fun _ _ _ => h⟩

theorem tries_createRun (accepting : Accepting D.platform) (hs : D.Retried x n unlisted s) (scenario : String)
    {prepared : Prepared} (nodup : prepared.caseIds.Nodup) (parent : Option String) :
    D.Tries x chance (createRun scenario prepared (retryRunId x.runId n) parent) s (D.Created x chance n unlisted) := by
  have steady {q : Inquiry} {t : Lab σ ρ} (ht : D.Retried x n unlisted t) (same : ∀ o t, (D.serve o q t).2 = t)
      (quiet : ∀ (t u : Lab σ ρ) a, noted unlisted ⟨t, q, a, u⟩ = unlisted)
      (fine : ∀ o t e, o.Fine → (D.serve o q t).1 ≠ .error e) :
      D.Tries x chance (inquire q) t (D.Steady x chance n unlisted) := tries_steady ht same quiet fine
  have select : D.Tries x chance (selectCases scenario prepared) s (D.Steady x chance n unlisted) := by
    refine Script.keeps_ite (fun _ => ?_) (fun _ => Script.keeps_done ⟨hs, fun _ h => (by cases h)⟩)
    exact steady hs (fun _ _ => rfl) (fun _ _ _ => rfl) (fun o _ e ho => (ho.answers e).2.2.1)
  refine Script.keeps_lift_bind (fun _ _ => ?_) (fun e he => absurd nodup (ensure_error_iff.1 he).1)
  refine select.bind (fun selected t ht => ?_) (fun e t ht => .error (ht.2 e rfl))
  refine Script.keeps_lift_bind (fun _ _ => ?_)
    (fun e he => absurd (retryRunId_nonBlank x.runId n) (ensure_error_iff.1 he).1)
  refine (steady ht.1 (fun _ _ => rfl) (fun _ _ _ => rfl) (fun _ _ _ _ h => by cases h)).bind (fun now t ht => ?_)
    (fun e t ht => .error (ht.2 e rfl))
  refine (steady (q := .validateSnapshot _) ht.1 (fun _ _ => rfl) (fun _ _ _ => rfl)
    (fun o _ e ho => (ho.answers e).2.2.2.2.1)).bind (fun _ t ht => ?_) (fun e t ht => .error (ht.2 e rfl))
  refine (steady (q := .validatePlans _) ht.1 (fun _ _ => rfl) (fun _ _ _ => rfl)
    (fun o _ e ho => (ho.answers e).2.2.2.2.1)).bind (fun _ t ht => ?_) (fun e t ht => .error (ht.2 e rfl))
  refine (tries_create accepting ht.1 (by rfl)
    (newRun_newRunRecord scenario prepared selected (retryRunId_nonBlank x.runId n) parent now)
    (validateEvent_queued _)).bind (fun _ t ht => ?_) (fun e t ht => ?_)
  · obtain ⟨hlisted, hborn⟩ := ht.1 rfl
    exact (tries_after hborn _).mono (fun r u hu => ⟨fun _ _ => ⟨hlisted, hu.1⟩, fun e he _ => hu.2 e he⟩)
  · exact ⟨fun _ h => (by cases h), fun _ _ hlisted => ht.2 e rfl hlisted⟩

theorem supersedingOf_of_lists {c : Document} {listed : List String} (h : Lists c listed) :
    supersedingOf c = Script.lift (.ok (listed.map Value.str)) := by
  rw [supersedingOf, superseding_of_lists h]

theorem tries_retryCell (accepting : Accepting D.platform) (hs : D.Retried x n unlisted s) :
    D.Tries x chance (retryCell x.id) s (fun r t => (∀ a, r = .ok a → unlisted = false ∧ D.Retried x (n + 1) false t) ∧
      ∀ e, r = .error e → unlisted = false → ¬∀ o, (chance o).Fine) := by
  have raised {e : Exn} {t : Lab σ ρ} (h : ¬∀ o, (chance o).Fine) : (∀ a, (.error e : Except Exn Retry) = .ok a → unlisted = false ∧
      D.Retried x (n + 1) false t) ∧ ∀ e', (.error e : Except Exn Retry) = .error e' → unlisted = false → ¬∀ o, (chance o).Fine :=
    ⟨fun _ h => (by cases h), fun _ _ _ => h⟩
  refine (tries_getCell hs).bind (fun found t ht => ?_) (fun e t ht => by cases ht.2)
  obtain ⟨ht, hfound⟩ := ht
  cases hfound
  obtain ⟨c, hc, ⟨stored, hspec⟩, howned, hlists⟩ := ht.cell
  rw [hc]
  refine (tries_getSpec ht _ _).bind (fun found u hu => ?_) (fun e t ht => by cases ht.2)
  obtain ⟨hu, hfound⟩ := hu
  cases hspec.symm.trans (Except.ok.inj hfound).symm
  refine (tries_steady (q := .readSpec stored) hu (fun _ _ => rfl) (fun _ _ _ => rfl)
    (fun o _ e ho => (ho.answers e).1)).bind (fun spec v hv => ?_) (fun e t ht => raised (ht.2 e rfl))
  rw [howned]
  refine (tries_steady (q := .admitRetry spec) hv.1 (fun _ _ => rfl) (fun _ _ _ => rfl)
    (fun o _ e ho => (ho.answers e).2.1)).bind (fun _ w hw => ?_) (fun e t ht => raised (ht.2 e rfl))
  refine (tries_read (q := .getRun x.original) (Φ := fun r u => D.Retried x n unlisted u ∧
    ∃ run, r = .ok (some run) ∧ (caseIds run).Nodup) hw.1 (fun _ _ => rfl) (fun _ _ _ => rfl) (fun u o hu _ => ?_)).bind
    (fun found u hu => ?_) (fun e u hu => ?_)
  · obtain ⟨run, hrun, nodup⟩ := hu.run
    exact ⟨hu, run, congrArg Except.ok hrun, nodup⟩
  · obtain ⟨hu, run, hfound, nodup⟩ := hu
    cases hfound
    rw [supersedingOf_of_lists hlists, x.named]
    refine Script.keeps_lift_bind (fun listed hlisted => ?_) (fun e he => by cases he)
    cases hlisted
    refine Script.keeps_lift_bind (fun runId hrunId => ?_) (fun e he => by cases he)
    cases hrunId
    rw [List.length_map, length_retryRunIds]
    refine (tries_steady (q := .refreeze _ _) hu (fun _ _ => rfl) (fun _ _ _ => rfl)
      (fun o _ e ho => (ho.answers e).2.2.2.1)).bind (fun manifest u hu => ?_) (fun e t ht => raised (ht.2 e rfl))
    refine (tries_createRun accepting hu.1 _ nodup (some x.original)).bind (fun _ u hu => ?_)
      (fun e u hu => ⟨fun _ h => (by cases h), fun _ _ hlisted => hu.2 e rfl hlisted⟩)
    obtain ⟨hlisted, hborn⟩ := hu.1 _ rfl
    refine (tries_record hborn).bind (fun _ u hu => ?_) (fun e u hu => by cases hu.1)
    refine (tries_getCell hu.2).bind (fun found u hu => ?_) (fun e u hu => by cases hu.2)
    obtain ⟨hu, hfound⟩ := hu
    cases hfound
    obtain ⟨c', hc', -, -, hlists'⟩ := hu.cell
    rw [hc', Option.getD_some, supersedingOf_of_lists hlists']
    exact Script.keeps_lift_bind (fun _ _ => Script.keeps_done ⟨fun _ _ => ⟨hlisted, hu⟩, fun _ h => (by cases h)⟩)
      (fun e he => by cases he)
  · obtain ⟨-, run, h, -⟩ := hu
    cases h

end

/-- The runs that a cell lists are told apart. -/
def NoneTwice (s : Lab σ ρ) : Prop := ∃ c listed, D.cellAt s x.id = some c ∧ Lists c listed ∧ listed.Nodup

/-- The retries that are there are listed. -/
def AllListed (s : Lab σ ρ) : Prop :=
  ∃ c listed, D.cellAt s x.id = some c ∧ Lists c listed ∧ ∀ k, D.live s (retryRunId x.runId k) = true →
    retryRunId x.runId k ∈ listed

section
variable {D x} {s : Lab σ ρ} {n : Nat} {unlisted : Bool}

theorem Retried.noneTwice (h : D.Retried x n unlisted s) : D.NoneTwice x s := by
  obtain ⟨c, hc, -, -, hlists⟩ := h.cell
  exact ⟨c, _, hc, hlists, nodup_retryRunIds _ _⟩

theorem Retried.allListed (h : D.Retried x n false s) : D.AllListed x s := by
  obtain ⟨c, hc, -, -, hlists⟩ := h.cell
  exact ⟨c, _, hc, hlists, fun k hk => mem_retryRunIds.2 ((h.live k).1 hk)⟩

/-- As long as there is a run that is not listed, no retry returns. -/
theorem Retried.stuck (accepting : Accepting D.platform) (h : D.Retried x n true s)
    {calls : List (Exchange (Lab σ ρ) Inquiry Finding Exn)} {a : Retry} {t : Lab σ ρ} :
    ¬(retryCell x.id).Completes D.serve D.Calm s calls (.ok a) t := by
  intro completes
  have trying : D.Trying x [⟨s, .createRun ⟨"", none, none, none, ∅⟩ ⟨none, "", ∅⟩, .ok (), s⟩] s := ⟨n, h⟩
  have hends := Script.Keeps.of_completes (@tries_retryCell _ _ _ _ _ id _ _ _ accepting h) trying completes
  cases (hends.1 a rfl).1

/-- A retry that meets nothing unexpected returns. -/
theorem Retried.returns (accepting : Accepting D.platform) (h : D.Retried x n false s) {o : Chance} (fine : o.Fine) :
    ∃ calls a t, (retryCell x.id).Completes D.serve D.Calm s calls (.ok a) t := by
  obtain ⟨calls, r, t, completes⟩ := @Script.exists_completes _ _ _ _ _ _ (fun _ : Unit => D.serve o) _ Calm.refl ()
    (retryCell x.id) s
  have trying : D.Trying x [] s := ⟨n, h⟩
  have hends := Script.Keeps.of_completes (@tries_retryCell _ _ _ _ _ (fun _ : Unit => o) _ _ _ accepting h) trying completes
  cases r with
  | ok a => exact ⟨calls, a, t, completes.of_fewer⟩
  | error e => exact absurd (fun _ => fine) (hends.2 e rfl rfl)

end

end Deployment

/-! ### Every sequence of retries -/

/-- From a cell whose retries are listed on, whatever calls are made and cut short as is allowed, no run is listed twice,
a further retry can return, and one that returns leaves every retry listed. -/
def RetriesSafe {σ ρ : Type} (D : Deployment σ ρ) (x : Target)
    (Allowed : List (Exchange (Lab σ ρ) Inquiry Finding Exn) → Prop) : Prop :=
  ∀ n s history t, D.Retried x n false s →
    Sessions D.serve D.Calm (fun script calls => script = retryCell x.id ∧ Allowed calls) s history t →
      D.NoneTwice x t ∧ (∃ calls a u, (retryCell x.id).Completes D.serve D.Calm t calls (.ok a) u) ∧
        ∀ calls a u, (retryCell x.id).Completes D.serve D.Calm t calls (.ok a) u → D.NoneTwice x u ∧ D.AllListed x u

/-- Nothing unexpected happens. -/
def plainChance : Chance where
  readSpec := .ok plainSpec

theorem plainChance_fine : plainChance.Fine where
  answers e := by simp [plainChance]
  faults := ⟨rfl, rfl⟩

section
variable {σ ρ : Type} {D : Deployment σ ρ} {x : Target}

/-- After retries none of which was cut short between its two writes, every retry is listed. -/
theorem retried_of_sessions (accepting : Accepting D.platform) {n : Nat} {s t : Lab σ ρ}
    {history : List (Exchange (Lab σ ρ) Inquiry Finding Exn)} (hs : D.Retried x n false s)
    (sessions : Sessions D.serve D.Calm (fun script calls => script = retryCell x.id ∧ dangling calls = false) s history t) :
    ∃ m, D.Retried x m false t := by
  have listed : dangling history = false :=
    sessions.holds (P := fun history => dangling history = false) rfl (fun _ calls history h hpast => (dangling_append hpast).trans h.2)
  have trying : D.Trying x history t := by
    refine sessions.keeps ⟨n, hs⟩ (fun script calls u h past hpast => ?_)
    obtain ⟨rfl, -⟩ := h
    obtain ⟨m, hu⟩ := hpast
    exact (@Deployment.tries_retryCell _ _ _ _ _ id _ _ _ accepting hu).mono (fun _ _ _ => trivial) past ⟨m, hu⟩
  rwa [Deployment.Trying, listed] at trying

theorem retries_safe (accepting : Accepting D.platform) : RetriesSafe D x (fun calls => dangling calls = false) := by
  intro n s history t hs sessions
  obtain ⟨m, ht⟩ := retried_of_sessions accepting hs sessions
  refine ⟨ht.noneTwice, ht.returns accepting plainChance_fine, fun calls a u completes => ?_⟩
  have trying : D.Trying x [] t := ⟨m, ht⟩
  have hends := Script.Keeps.of_completes (@Deployment.tries_retryCell _ _ _ _ _ id _ _ _ accepting ht) trying completes
  have hu := (hends.1 a rfl).2
  exact ⟨hu.noneTwice, hu.allListed⟩

end

/-- In both stores, retries of a cell are safe as long as none is cut short, and none raises, between the creation of
its run and the entry in the list. -/
theorem retries_listed (dumps : Value → String) (x : Target) :
    RetriesSafe (memoryDeployment dumps) x (fun calls => dangling calls = false) ∧
      RetriesSafe sqliteDeployment x (fun calls => dangling calls = false) :=
  ⟨retries_safe accepting_memory, retries_safe accepting_sqlite⟩

/-- The one cell of the plain spec. -/
def plainTarget : Target where
  id := "sha256:0"
  runId := "run-exp-0"
  original := "run-exp-0"
  named := by decide +kernel

def plainRun : RunInput := newRunRecord "s@1" ⟨.obj [], ["case"], .obj []⟩ ["case"] "run-exp-0" none ""

/-- The cell is published, claimed and completed, and its run is there. -/
def allocatedLab : Lab MemoryExperiments Memory.Store where
  experiments := run (memoryStore (fun _ => "")).step {}
    [.publish plainSpec.dump [cellPayload repeatHash plainSpec ([], 0)], .claim "sha256:0", .complete "sha256:0" "run-exp-0"]
  platform := (memory.serve (.run (.create plainRun none)) {}).2

theorem retried_allocatedLab : (memoryDeployment (fun _ => "")).Retried plainTarget 0 false allocatedLab where
  inv := run_keeps (fun s r hs => (lawful_memory (fun _ => "")).keeps r s hs) _ (lawful_memory (fun _ => "")).init
  cell := by
    have evaluated : (((memoryDeployment (fun _ => "")).cellAt allocatedLab "sha256:0").map (fun c =>
        (((memoryStore (fun _ => "")).specAt allocatedLab.experiments (cellKey c)).isSome, ownedRun c,
          c.get "superseding_run_ids"))) = some (true, some "run-exp-0", some (.arr [])) := by
      decide +kernel
    obtain ⟨c, hc, h⟩ := Option.map_eq_some_iff.1 evaluated
    simp only [Prod.mk.injEq] at h
    exact ⟨c, hc, Option.isSome_iff_exists.1 h.1, h.2.1, h.2.2⟩
  run := ⟨plainRun.stored 1, by rfl, by decide +kernel⟩
  live k := by
    refine iff_of_false ?_ (Nat.not_lt_zero k)
    have hne : retryRunId "run-exp-0" k ≠ plainRun.id := by
      intro heq
      have hlength := congrArg (fun text => text.toList.length) heq
      simp [retryRunId, plainRun, newRunRecord] at hlength
    have unborn : (memory.runAt allocatedLab.platform (retryRunId "run-exp-0" k)) = none := by
      have created := creating_memory.create plainRun none {}
      unfold allocatedLab
      rcases hserve : memory.serve (.run (.create plainRun none)) {} with ⟨e | a, u⟩
      · exact ((Op.wp_of_error hserve).1 created).1 _
      · exact ((Op.wp_of_ok hserve).1 created).2.2 _ hne
    rw [Deployment.live]
    exact Bool.not_eq_true _ ▸ congrArg Option.isSome unborn

/-- The first retry ends when its run has been created, and no later one returns. -/
theorem interrupted_retry_blocks :
    ¬ RetriesSafe (memoryDeployment (fun _ => "")) plainTarget (fun _ => True) := by
  intro h
  let D := memoryDeployment (fun _ => "")
  let calls := Script.exchanges D.serve (List.replicate 10 plainChance) (retryCell plainTarget.id) allocatedLab
  have makes : (retryCell plainTarget.id).Makes D.serve D.Calm allocatedLab calls :=
    Script.makes_exchanges Deployment.Calm.refl _ _ _
  have trying : D.Trying plainTarget calls (Script.left allocatedLab calls) :=
    ((@Deployment.tries_retryCell _ _ D _ _ id _ _ _ accepting_memory retried_allocatedLab) [] ⟨0, retried_allocatedLab⟩).keeps
      makes ⟨0, retried_allocatedLab⟩
  have unlisted : dangling calls = true := by decide +kernel
  obtain ⟨n, hretried⟩ := trying
  rw [unlisted] at hretried
  obtain ⟨-, ⟨calls', a, u, completes⟩, -⟩ :=
    h 0 _ _ _ retried_allocatedLab (.next .begin ⟨rfl, trivial⟩ makes)
  exact hretried.stuck accepting_memory completes

end Motte.Experiment
