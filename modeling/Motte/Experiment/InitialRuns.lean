import Motte.Experiment.StoreLaws
import Motte.Foundation.History

/-! One initial run for each cell.

Calls of `create` and `allocate` on one experiment are serialised by a lock, and each
may be cut short between any two of its writes. What a call has to recognise is a cell
that is claimed, with or without its run. The invariant says where a run may exist: only
under a cell that is claimed or allocated. It is kept as long as `create_run` does not
raise once the run is there, and does not report a conflict before. -/
namespace Motte.Experiment
open Foundation Storage Service

/-- The steps of `create_run` at which it may raise, and what. -/
structure Chance.Orderly (o : Chance) : Prop where
  /-- Nothing before the run is there reports a conflict. -/
  before : ∀ e, o.prepare = .error e ∨ o.replayCases = .error e ∨ o.validate = .error e ∨ o.createFault = some e →
    e.isConflict = false
  /-- Nothing after it raises anything else. -/
  after : ∀ e, o.ensurePlans = .error e ∨ o.readFault = some e → e.isConflict = true

/-- The runs that were created. -/
def created {τ : Type} : List (Exchange τ Inquiry Finding Exn) → List String :=
  List.filterMap fun
    | ⟨_, .createRun run _, .ok _, _⟩ => some run.id
    | _ => none

/-- The cell is done with. -/
def Done (c : Document) : Prop := ∃ st ∈ ["allocated", "failed", "cancelled"], status c = some (.str st)

namespace Deployment
variable {σ ρ : Type} (D : Deployment σ ρ) (hash : Value → String) (experimentId version : String)

/-- The server of calls that go well. -/
def orderlyServe (o : { o : Chance // o.Orderly }) (q : Inquiry) : Op (Lab σ ρ) Exn (Finding q) := D.serve o.1 q

/-- A cell id of the experiment. -/
def Genuine (id : String) : Prop := ∃ a index, id = computeCellId hash experimentId version a index

/-- What holds of the cells and runs of the experiment whenever a call has been made. -/
structure Sound (s : Lab σ ρ) : Prop where
  inv : D.Inv s.experiments
  known : ∀ id c, D.cellAt s id = some c → cellKey c = (experimentId, version) →
    Genuine hash experimentId version id ∧
      ∃ st ∈ ["pending", "allocating", "allocated", "failed", "cancelled"], status c = some (.str st)
  claimed : ∀ id runId, Genuine hash experimentId version id → deterministicRunId id = .ok runId → D.live s runId →
    ∃ c, D.cellAt s id = some c ∧ cellKey c = (experimentId, version) ∧
      (status c = some (.str "allocating") ∨ status c = some (.str "allocated"))
  placed : ∀ id c, D.cellAt s id = some c → cellKey c = (experimentId, version) → status c = some (.str "allocated") →
    ∃ runId, deterministicRunId id = .ok runId ∧ Experiment.runId c = some (.str runId) ∧ D.live s runId

/-- The state is sound, and each run was created once, for a cell. -/
structure Kept (past : List (Exchange (Lab σ ρ) Inquiry Finding Exn)) (s : Lab σ ρ) : Prop where
  sound : D.Sound hash experimentId version s
  once : (created past).Nodup
  owned : ∀ runId ∈ created past, D.live s runId ∧
    ∃ id, Genuine hash experimentId version id ∧ deterministicRunId id = .ok runId

/-- The script, from a state on. -/
def Does {α : Type} (x : Procedure α) (s : Lab σ ρ) (Φ : Except Exn α → Lab σ ρ → Prop) : Prop :=
  x.Keeps D.orderlyServe D.Undisturbed (D.Kept hash experimentId version) s Φ

/-! ### States -/

section States
variable {D hash experimentId version} {s t : Lab σ ρ} {past : List (Exchange (Lab σ ρ) Inquiry Finding Exn)}

theorem Undisturbed.refl (s : Lab σ ρ) : D.Undisturbed s s := ⟨rfl, fun _ => rfl⟩

theorem Undisturbed.trans {u : Lab σ ρ} (h : D.Undisturbed s t) (h' : D.Undisturbed t u) : D.Undisturbed s u :=
  ⟨h'.1.trans h.1, fun rid => (h'.2 rid).trans (h.2 rid)⟩

theorem Undisturbed.cellAt (h : D.Undisturbed s t) : D.cellAt t = D.cellAt s := by
  funext id
  rw [Deployment.cellAt, Deployment.cellAt, h.1]

theorem Undisturbed.sound (h : D.Undisturbed s t) (hs : D.Sound hash experimentId version s) :
    D.Sound hash experimentId version t where
  inv := h.1 ▸ hs.inv
  known id c hget := hs.known id c (h.cellAt ▸ hget)
  claimed id runId genuine hid hlive := h.cellAt ▸ hs.claimed id runId genuine hid (h.2 runId ▸ hlive)
  placed id c hget hkey hstatus := by
    obtain ⟨runId, hid, hrun, hlive⟩ := hs.placed id c (h.cellAt ▸ hget) hkey hstatus
    exact ⟨runId, hid, hrun, (h.2 runId).symm ▸ hlive⟩

/-- A call that creates no run is noted nowhere. -/
theorem Kept.quiet (h : D.Kept hash experimentId version past s) (c : Exchange (Lab σ ρ) Inquiry Finding Exn)
    (quiet : created [c] = []) (sound : D.Sound hash experimentId version t)
    (live : ∀ runId, D.live s runId → D.live t runId) : D.Kept hash experimentId version (past ++ [c]) t := by
  have same : created (past ++ [c]) = created past := by
    rw [created, List.filterMap_append, ← created, quiet, List.append_nil]
  refine ⟨sound, same ▸ h.once, fun runId hrun => ?_⟩
  obtain ⟨hlive, owner⟩ := h.owned runId (same ▸ hrun)
  exact ⟨live runId hlive, owner⟩

variable (D hash experimentId version) in
/-- What a cell of the experiment has to meet while the runs are as they are. -/
structure Fits (s : Lab σ ρ) (id : String) (d : Document) : Prop where
  key : cellKey d = (experimentId, version)
  known : ∃ st ∈ ["pending", "allocating", "allocated", "failed", "cancelled"], status d = some (.str st)
  claimed : ∀ rid, deterministicRunId id = .ok rid → D.live s rid →
    status d = some (.str "allocating") ∨ status d = some (.str "allocated")
  placed : status d = some (.str "allocated") →
    ∃ rid, deterministicRunId id = .ok rid ∧ runId d = some (.str rid) ∧ D.live s rid

variable (D) in
/-- One cell is rewritten, and no run appears or goes. -/
def Rewritten (s : Lab σ ρ) (id : String) (d : Document) (t : Lab σ ρ) : Prop :=
  D.cellAt t = Function.update (D.cellAt s) id (some d) ∧ ∀ rid, D.live t rid = D.live s rid

/-- One cell of the experiment is rewritten. -/
theorem Sound.rewrite (hs : D.Sound hash experimentId version s) {id : String} {c d : Document} {u : σ}
    (inv : D.Inv u) (hc : D.cellAt s id = some c) (hkey : cellKey c = (experimentId, version))
    (cells : D.store.cellAt u = Function.update (D.store.cellAt s.experiments) id (some d))
    (fits : D.Fits experimentId version s id d) : D.Sound hash experimentId version { s with experiments := u } := by
  have at_ (other : String) : D.cellAt { s with experiments := u } other =
      if other = id then some d else D.cellAt s other := by
    rw [Deployment.cellAt, cells, Function.update_apply]
    rfl
  refine ⟨inv, fun other e hget hkey' => ?_, fun other rid genuine hid hlive => ?_, fun other e hget hkey' hstatus => ?_⟩
  · rw [at_] at hget
    split at hget
    · rename_i heq
      cases hget
      exact ⟨heq ▸ (hs.known id c hc hkey).1, fits.known⟩
    · exact hs.known other e hget hkey'
  · rw [at_]
    split
    · rename_i heq
      subst heq
      exact ⟨d, rfl, fits.key, fits.claimed rid hid hlive⟩
    · exact hs.claimed other rid genuine hid hlive
  · rw [at_] at hget
    split at hget
    · rename_i heq
      cases hget
      exact heq ▸ fits.placed hstatus
    · exact hs.placed other e hget hkey' hstatus

theorem cellKey_changed {r : CellRequest} {id : String} {c c' : Document} (h : Changed r id c c') :
    cellKey c' = cellKey c := by
  rw [cellKey, cellKey, h.textOf_eq (by decide), h.textOf_eq (by decide)]

/-- A cell that moved to a status that the runs allow. -/
theorem fits_moved {r : CellRequest} {id st : String} {c c' : Document} (changed : Changed r id c c')
    (hkey : cellKey c = (experimentId, version)) (hst : status c' = some (.str st))
    (known : st ∈ ["pending", "allocating", "allocated", "failed", "cancelled"])
    (claimed : ∀ rid, deterministicRunId id = .ok rid → D.live s rid → st = "allocating" ∨ st = "allocated")
    (placed : st = "allocated" → ∃ rid, deterministicRunId id = .ok rid ∧ runId c' = some (.str rid) ∧ D.live s rid) :
    D.Fits experimentId version s id (D.reads c') := by
  have hstatus : status (D.reads c') = some (.str st) := (status_reads D.lawful.reading).2 hst
  refine ⟨?_, ⟨st, known, hstatus⟩, fun rid hid hlive => ?_, fun hallocated => ?_⟩
  · rw [cellKey_reads D.lawful.reading, cellKey_changed changed, hkey]
  · rw [hstatus]
    exact (claimed rid hid hlive).imp (fun h => by rw [h]) (fun h => by rw [h])
  · rw [hstatus] at hallocated
    obtain ⟨rid, hid, hrun, hlive⟩ := placed (Value.str.inj (Option.some.inj hallocated))
    exact ⟨rid, hid, (runId_reads D.lawful.reading).2 hrun, hlive⟩

theorem Undisturbed.fits {id : String} {d : Document} (h : D.Undisturbed s t) (hd : D.Fits experimentId version s id d) :
    D.Fits experimentId version t id d where
  key := hd.key
  known := hd.known
  claimed rid hid hlive := hd.claimed rid hid (h.2 rid ▸ hlive)
  placed hstatus := by
    obtain ⟨rid, hid, hrun, hlive⟩ := hd.placed hstatus
    exact ⟨rid, hid, hrun, (h.2 rid).symm ▸ hlive⟩

end States

/-! ### Calls -/

section Calls
variable {D hash experimentId version} {s : Lab σ ρ}

/-- A call that leaves the state as it is. -/
theorem does_read {q : Inquiry} {Φ : Except Exn (Finding q) → Lab σ ρ → Prop} (same : ∀ o t, (D.serve o q t).2 = t)
    (quiet : ∀ (t u : Lab σ ρ) a, created [⟨t, q, a, u⟩] = [])
    (h : ∀ t (o : { o : Chance // o.Orderly }), D.Undisturbed s t → Φ (D.serve o.1 q t).1 t) :
    D.Does hash experimentId version (inquire q) s Φ := by
  refine Script.keeps_call (fun past t hkept hst o => ?_)
  have hsame : (D.orderlyServe o q t).2 = t := same o.1 t
  rw [hsame]
  exact ⟨hkept.quiet _ (quiet ..) (hst.sound hkept.sound) (fun runId hlive => (hst.2 runId).symm ▸ hlive), h t o hst⟩

/-- A request of the experiment store. -/
theorem does_cells {r : CellRequest} {Φ : Except Exn CellReply → Lab σ ρ → Prop}
    (h : ∀ t, D.Undisturbed s t → D.Sound hash experimentId version t → (D.store.serve r).wp t.experiments
      (fun reply u => D.Sound hash experimentId version { t with experiments := u } ∧
        Φ (.ok reply) { t with experiments := u })
      (fun e u => u = t.experiments ∧ Φ (.error e.exn) t)) :
    D.Does hash experimentId version (inquire (.cells r)) s Φ := by
  refine Script.keeps_served (fun past t hkept hst o => ?_)
  have hsound := hst.sound hkept.sound
  have live (runId : String) (hlive : D.live s runId) : D.live t runId := (hst.2 runId).symm ▸ hlive
  show Op.wp (α := CellReply) (onExperiments (Op.mapErr CellError.exn (D.store.serve r))) t _ _
  unfold onExperiments
  refine Op.wp_zoom.2 (Op.wp_mapErr.2 ?_)
  refine Op.wp_mono (h t hst hsound) (fun reply u hu => ?_) (fun e u hu => ?_)
  · exact ⟨hkept.quiet _ rfl hu.1 live, hu.2⟩
  · obtain ⟨rfl, hΦ⟩ := hu
    exact ⟨hkept.quiet _ rfl hsound live, hΦ⟩

/-- A request that rewrites one cell of the experiment. -/
theorem does_change {r : CellRequest} {id : String} {mutate : Document → Except CellError Document}
    (hr : r.mutation = some (id, mutate)) {c : Document} (hc : D.cellAt s id = some c)
    (hkey : cellKey c = (experimentId, version))
    (fits : ∀ c', mutate c = .ok c' → D.Fits experimentId version s id (D.reads c'))
    {Φ : Except Exn Unit → Lab σ ρ → Prop}
    (ok : ∀ c' t, mutate c = .ok c' → D.Rewritten s id (D.reads c') t → Φ (.ok ()) t)
    (error : ∀ e t, mutate c = .error e → D.Undisturbed s t → Φ (.error e.exn) t) :
    D.Does hash experimentId version (change r) s Φ := by
  have asked : D.Does hash experimentId version (inquire (.cells r)) s (fun a t =>
      (∃ c', mutate c = .ok c' ∧ D.Rewritten s id (D.reads c') t ∧ ∃ reply, a = .ok reply) ∨
        ∃ e, mutate c = .error e ∧ D.Undisturbed s t ∧ a = .error e.exn) := by
    refine does_cells (fun t hst hsound => ?_)
    have hc' : D.cellAt t id = some c := hst.cellAt ▸ hc
    refine Op.wp_mono (Op.wp_and (D.lawful.mutates r id mutate t.experiments hr)
      (Op.wp_of_state (D.lawful.keeps r t.experiments hsound.inv))) (fun reply u hu => ?_) (fun e u hu => ?_)
    · obtain ⟨⟨d, c', hd, hmutate, -, hcells⟩, hinv⟩ := hu
      cases hc'.symm.trans hd
      refine ⟨hsound.rewrite hinv hc' hkey hcells (hst.fits (fits c' hmutate)),
        .inl ⟨c', hmutate, ⟨?_, hst.2⟩, reply, rfl⟩⟩
      rw [← hst.cellAt]
      exact hcells
    · obtain ⟨⟨rfl, herror⟩, -⟩ := hu
      exact ⟨rfl, .inr ⟨e, herror c hc', hst, rfl⟩⟩
  refine asked.bind (fun reply t hreply => Script.keeps_done ?_) (fun e t herror => ?_)
  · rcases hreply with ⟨c', hmutate, hcells, -⟩ | ⟨e, -, -, h⟩
    · exact ok c' t hmutate hcells
    · cases h
  · rcases herror with ⟨_, -, -, _, h⟩ | ⟨e', hmutate, hst, h⟩
    · cases h
    · cases h
      exact error e' t hmutate hst

/-- A request that tries to rewrite one cell of the experiment. -/
theorem does_attempt {r : CellRequest} {id : String} {mutate : Document → Option Document}
    (hr : r.trial = some (id, mutate)) {c : Document} (hc : D.cellAt s id = some c)
    (hkey : cellKey c = (experimentId, version))
    (fits : ∀ c', mutate c = some c' → D.Fits experimentId version s id (D.reads c'))
    {Φ : Except Exn Bool → Lab σ ρ → Prop}
    (done : ∀ c' t, mutate c = some c' → D.Rewritten s id (D.reads c') t → Φ (.ok true) t)
    (left : ∀ t, mutate c = none → D.Undisturbed s t → Φ (.ok false) t) (error : ∀ e t, Φ (.error e) t) :
    D.Does hash experimentId version (attempted r) s Φ := by
  have asked : D.Does hash experimentId version (inquire (.cells r)) s (fun a t =>
      (∃ c', mutate c = some c' ∧ D.Rewritten s id (D.reads c') t ∧ a = .ok (.flag true)) ∨
        (mutate c = none ∧ D.Undisturbed s t ∧ a = .ok (.flag false)) ∨ ∃ e, a = .error e) := by
    refine does_cells (fun t hst hsound => ?_)
    have hc' : D.cellAt t id = some c := hst.cellAt ▸ hc
    refine Op.wp_mono (Op.wp_and (D.lawful.tries r id mutate t.experiments hr)
      (Op.wp_of_state (D.lawful.keeps r t.experiments hsound.inv))) (fun reply u hu => ?_) (fun e u hu => ?_)
    · obtain ⟨⟨d, hd, ⟨rfl, hmutate, rfl⟩ | ⟨c', rfl, hmutate, hcells⟩⟩, hinv⟩ := hu
      · cases hc'.symm.trans hd
        exact ⟨hsound, .inr (.inl ⟨hmutate, hst, rfl⟩)⟩
      · cases hc'.symm.trans hd
        refine ⟨hsound.rewrite hinv hc' hkey hcells (hst.fits (fits c' hmutate)), .inl ⟨c', hmutate, ⟨?_, hst.2⟩, rfl⟩⟩
        rw [← hst.cellAt]
        exact hcells
    · exact ⟨hu.1, .inr (.inr ⟨_, rfl⟩)⟩
  refine asked.bind (fun reply t hreply => ?_) (fun e t _ => error e t)
  rcases hreply with ⟨c', hmutate, hcells, h⟩ | ⟨hmutate, hst, h⟩ | ⟨e, h⟩
  · cases h
    exact Script.keeps_done (done c' t hmutate hcells)
  · cases h
    exact Script.keeps_done (left t hmutate hst)
  · cases h

theorem does_getCell {id : String} {Φ : Except Exn (Option Document) → Lab σ ρ → Prop}
    (h : ∀ t, D.Undisturbed s t → Φ (.ok (D.cellAt s id)) t) : D.Does hash experimentId version (getCell id) s Φ := by
  have asked : D.Does hash experimentId version (inquire (.cells (.getCell id))) s (fun a t =>
      D.Undisturbed s t ∧ a = .ok (.found (D.cellAt s id))) := by
    refine does_cells (fun t hst hsound => ?_)
    rw [Op.wp_of_ok (D.lawful.getCell t.experiments id)]
    refine ⟨hsound, hst, ?_⟩
    rw [← hst.cellAt]
    rfl
  refine asked.bind (fun reply t ⟨hst, hreply⟩ => ?_) (fun e t ⟨_, herror⟩ => by cases herror)
  cases hreply
  exact Script.keeps_done (h t hst)

theorem does_getSpec {e' v' : String} {Φ : Except Exn (Option Document) → Lab σ ρ → Prop}
    (h : ∀ found t, D.Undisturbed s t → Φ (.ok found) t) : D.Does hash experimentId version (getSpec e' v') s Φ := by
  have asked : D.Does hash experimentId version (inquire (.cells (.getSpec e' v'))) s (fun a t =>
      D.Undisturbed s t ∧ ∃ found, a = .ok (.found found)) := by
    refine does_cells (fun t hst hsound => ?_)
    rw [Op.wp_of_ok (D.lawful.getSpec t.experiments e' v')]
    exact ⟨hsound, hst, _, rfl⟩
  refine asked.bind (fun reply t ⟨hst, found, hreply⟩ => ?_) (fun e t ⟨_, _, herror⟩ => by cases herror)
  cases hreply
  exact Script.keeps_done (h found t hst)

theorem does_listCells {e' v' : String} {Φ : Except Exn (List Document) → Lab σ ρ → Prop}
    (h : ∀ ds t, D.Undisturbed s t → (ds.map cellId).Nodup →
      (∀ d, d ∈ ds ↔ D.cellAt s (cellId d) = some d ∧ cellKey d = (e', v')) → Φ (.ok ds) t) :
    D.Does hash experimentId version (listCells e' v') s Φ := by
  have asked : D.Does hash experimentId version (inquire (.cells (.listCells e' (some v')))) s (fun a t =>
      D.Undisturbed s t ∧ ∃ ds, a = .ok (.documents ds) ∧ (ds.map cellId).Nodup ∧
        ∀ d, d ∈ ds ↔ D.cellAt s (cellId d) = some d ∧ cellKey d = (e', v')) := by
    refine does_cells (fun t hst hsound => ?_)
    obtain ⟨ds, hserve, nodup, mem⟩ := D.lawful.listCells t.experiments e' v' hsound.inv
    rw [Op.wp_of_ok hserve]
    refine ⟨hsound, hst, ds, rfl, nodup, fun d => ?_⟩
    rw [mem d, ← hst.cellAt]
    rfl
  refine asked.bind (fun reply t ⟨hst, ds, hreply, nodup, mem⟩ => ?_) (fun e t ⟨_, _, herror, _⟩ => by cases herror)
  cases hreply
  exact Script.keeps_done (h ds t hst nodup mem)

end Calls

/-! ### Creating a run -/

section Creation
variable {D hash experimentId version} {s : Lab σ ρ} {id : String} {c : Document}

variable (hash experimentId version) in
/-- Run ids tell the cells of the experiment apart. -/
def Distinct : Prop := ∀ a b runId, Genuine hash experimentId version a → Genuine hash experimentId version b →
  deterministicRunId a = .ok runId → deterministicRunId b = .ok runId → a = b

/-- The run of a cell that is claimed may be there. -/
theorem Sound.born (hs : D.Sound hash experimentId version s) (distinct : Distinct hash experimentId version)
    (hc : D.cellAt s id = some c) (hkey : cellKey c = (experimentId, version))
    (hstatus : status c = some (.str "allocating")) {rid : String} (hid : deterministicRunId id = .ok rid) {t : Lab σ ρ}
    (experiments : t.experiments = s.experiments) (live : D.live t rid)
    (others : ∀ other, other ≠ rid → D.live t other = D.live s other) : D.Sound hash experimentId version t := by
  have cells : D.cellAt t = D.cellAt s := by
    funext other
    rw [Deployment.cellAt, Deployment.cellAt, experiments]
  refine ⟨experiments ▸ hs.inv, fun other d hget => hs.known other d (cells ▸ hget), fun other rid' genuine hid' hlive => ?_,
    fun other d hget hkey' hstatus' => ?_⟩
  · by_cases hrid : rid' = rid
    · subst hrid
      cases distinct other id rid' genuine (hs.known id c hc hkey).1 hid' hid
      exact ⟨c, cells ▸ hc, hkey, .inl hstatus⟩
    · rw [others rid' hrid] at hlive
      exact cells ▸ hs.claimed other rid' genuine hid' hlive
  · obtain ⟨rid', hid', hrun, hlive⟩ := hs.placed other d (cells ▸ hget) hkey' hstatus'
    refine ⟨rid', hid', hrun, ?_⟩
    by_cases hrid : rid' = rid
    · exact hrid ▸ live
    · rw [others rid' hrid]
      exact hlive

/-- The one call that creates the run of a cell. -/
theorem does_create (distinct : Distinct hash experimentId version) (hc : D.cellAt s id = some c)
    (hkey : cellKey c = (experimentId, version)) (hstatus : status c = some (.str "allocating")) {run : RunInput}
    {event : Event} (hid : deterministicRunId id = .ok run.id) (hlive : D.live s run.id = false)
    {Φ : Except Exn Unit → Lab σ ρ → Prop}
    (ok : ∀ t, t.experiments = s.experiments → D.live t run.id → Φ (.ok ()) t)
    (error : ∀ e t, e.isConflict = false → D.Undisturbed s t → Φ (.error e) t) :
    D.Does hash experimentId version (inquire (.createRun run event)) s Φ := by
  refine Script.keeps_served (fun past t hkept hst o => ?_)
  have hsound := hst.sound hkept.sound
  have live (rid : String) (h : D.live s rid) : D.live t rid := (hst.2 rid).symm ▸ h
  have hlive' : D.live t run.id = false := (hst.2 run.id).trans hlive
  show Op.wp (α := Unit) (faulty o.1.createFault (do
    let _ ← onPlatform (Op.mapErr .store (D.platform.serve (.run (.create run (some event)))))
    return ())) t _ _
  unfold faulty
  split
  · rename_i e hfault
    exact ⟨hkept.quiet _ rfl hsound live, error e t (o.2.before e (.inr (.inr (.inr hfault)))) hst⟩
  · unfold onPlatform
    refine Op.wp_bind.2 (Op.wp_zoom.2 (Op.wp_mapErr.2 ?_))
    refine Op.wp_mono (D.creating.create run (some event) t.platform) (fun _ u hu => ?_) (fun e u hu => ?_)
    · obtain ⟨-, hnew, hothers⟩ := hu
      have hborn : D.live { t with platform := u } run.id := by
        rw [Deployment.live, hnew]
        rfl
      have others (other : String) (hne : other ≠ run.id) : D.live { t with platform := u } other = D.live t other := by
        rw [Deployment.live, Deployment.live, hothers other hne]
      have kept (other : String) (h : D.live t other) : D.live { t with platform := u } other := by
        by_cases hne : other = run.id
        · exact hne ▸ hborn
        · rw [others other hne]
          exact h
      have hsound' : D.Sound hash experimentId version { t with platform := u } :=
        hsound.born distinct (hst.cellAt ▸ hc) hkey hstatus hid rfl hborn others
      refine ⟨⟨hsound', ?_, fun rid hrid => ?_⟩, ok _ hst.1 hborn⟩
      · rw [created, List.filterMap_append, ← created]
        refine List.nodup_append.2 ⟨hkept.once, List.nodup_singleton _, fun a ha b hb heq => ?_⟩
        cases List.mem_singleton.1 hb
        rw [heq] at ha
        rw [(hkept.owned _ ha).1] at hlive
        cases hlive
      · rw [created, List.filterMap_append, ← created] at hrid
        rcases List.mem_append.1 hrid with hrid | hrid
        · obtain ⟨hlive, owner⟩ := hkept.owned rid hrid
          exact ⟨kept rid (live rid hlive), owner⟩
        · cases List.mem_singleton.1 hrid
          exact ⟨hborn, id, (hkept.sound.known id c hc hkey).1, hid⟩
    · obtain ⟨hsame, hconflict⟩ := hu
      have hundisturbed : D.Undisturbed t { t with platform := u } :=
        ⟨rfl, fun rid => by rw [Deployment.live, Deployment.live, hsame rid]⟩
      refine ⟨hkept.quiet _ rfl (hundisturbed.sound hsound) (fun rid h => (hundisturbed.2 rid).symm ▸ live rid h),
        error _ _ ?_ (hst.trans hundisturbed)⟩
      by_contra hne
      rw [Bool.not_eq_false] at hne
      rw [Deployment.live, hconflict hne] at hlive'
      cases hlive'

/-- How `create_run` ends: with the run there, or with an exception that says whether it is. -/
def Ended (D : Deployment σ ρ) (s : Lab σ ρ) (rid : String) {α : Type} (r : Except Exn α) (t : Lab σ ρ) : Prop :=
  t.experiments = s.experiments ∧ (∀ a, r = .ok a → D.live t rid) ∧ ∀ e, r = .error e → e.isConflict = D.live t rid

theorem Ended.error_before {α : Type} {rid : String} {e : Exn} {t : Lab σ ρ} (hlive : D.live s rid = false)
    (h : D.Undisturbed s t) (he : e.isConflict = false) : D.Ended s rid (.error e : Except Exn α) t := by
  refine ⟨h.1, fun _ h => (by cases h), fun e' he' => ?_⟩
  cases he'
  rw [he, h.2 rid, hlive]

theorem Ended.error_after {α : Type} {rid : String} {e : Exn} {t : Lab σ ρ} (h : t.experiments = s.experiments)
    (hlive : D.live t rid) (he : e.isConflict = true) : D.Ended s rid (.error e : Except Exn α) t := by
  refine ⟨h, fun _ h => (by cases h), fun e' he' => ?_⟩
  cases he'
  rw [he, hlive]

theorem faulty_state {τ α : Type} {fault : Option Exn} {x : Op τ Exn α} (h : ∀ t, (x t).2 = t) (t : τ) :
    (faulty fault x t).2 = t := by
  unfold faulty
  split
  · rfl
  · exact h t

theorem faulty_error {τ α : Type} {fault : Option Exn} {x : Op τ Exn α} {t : τ} {e : Exn}
    (h : (faulty fault x t).1 = .error e) : fault = some e ∨ (x t).1 = .error e := by
  unfold faulty at h
  split at h
  · cases h
    exact .inl rfl
  · exact .inr h

/-- What `_view` reads: the run, which has to be there. -/
def viewed (D : Deployment σ ρ) (rid : String) : Op (Lab σ ρ) Exn (Option Run) := do
  match ← Op.gets (fun s => D.platform.runAt s.platform rid) with
  | none => Op.raise (.key rid)
  | some run => return some run

theorem viewed_state (rid : String) (t : Lab σ ρ) : (D.viewed rid t).2 = t := by
  unfold viewed
  rw [Op.bind_of_ok (Op.gets_apply _)]
  cases D.platform.runAt t.platform rid with
  | none => rfl
  | some run => rfl

theorem viewed_error {rid : String} {t : Lab σ ρ} {e : Exn} (hlive : D.live t rid) : (D.viewed rid t).1 ≠ .error e := by
  intro h
  unfold viewed at h
  rw [Op.bind_of_ok (Op.gets_apply _)] at h
  obtain ⟨run, hrun⟩ := Option.isSome_iff_exists.1 hlive
  rw [hrun] at h
  cases h

/-- What `create_run` asks once the run is there. -/
theorem ends_after {t : Lab σ ρ} {rid : String} (experiments : t.experiments = s.experiments) (hlive : D.live t rid)
    (run : RunInput) : D.Does hash experimentId version (do
      Script.when (trialShaped (run.stored 1) = true) (inquire (.ensurePlans run))
      let _ : Unit ← inquire (.notify rid)
      inquire (.view rid)) t (D.Ended s rid) := by
  have alive {u : Lab σ ρ} (hu : D.Undisturbed t u) : u.experiments = s.experiments ∧ D.live u rid :=
    ⟨hu.1.trans experiments, (hu.2 rid).symm ▸ hlive⟩
  have after {q : Inquiry} {u : Lab σ ρ} (hu : D.Undisturbed t u) (same : ∀ o t, (D.serve o q t).2 = t)
      (quiet : ∀ (t u : Lab σ ρ) a, created [⟨t, q, a, u⟩] = [])
      (fails : ∀ (o : { o : Chance // o.Orderly }) w e, D.live w rid → (D.serve o.1 q w).1 = .error e → e.isConflict = true) :
      D.Does hash experimentId version (inquire q) u
        (fun r w => D.Undisturbed t w ∧ ∀ e, r = .error e → e.isConflict = true) :=
    does_read same quiet (fun w o huw => ⟨hu.trans huw, fun e he => fails o w e (alive (hu.trans huw)).2 he⟩)
  have plans : D.Does hash experimentId version
      (Script.when (trialShaped (run.stored 1) = true) (inquire (.ensurePlans run))) t
      (fun r w => D.Undisturbed t w ∧ ∀ e, r = .error e → e.isConflict = true) := by
    refine Script.keeps_ite (fun _ => ?_) (fun _ => Script.keeps_done ⟨.refl t, fun _ h => (by cases h)⟩)
    exact after (.refl t) (fun _ _ => rfl) (fun _ _ _ => rfl) (fun o _ e _ he => o.2.after e (.inl he))
  have failed {α : Type} {e : Exn} {w : Lab σ ρ} (h : D.Undisturbed t w ∧ ∀ e', (.error e : Except Exn α) = .error e' →
      e'.isConflict = true) {β : Type} : D.Ended s rid (.error e : Except Exn β) w :=
    Ended.error_after (alive h.1).1 (alive h.1).2 (h.2 e rfl)
  refine plans.bind (fun _ u hu => ?_) (fun e u hu => failed hu)
  refine (after (q := .notify rid) hu.1 (fun o _ => ?_) (fun _ _ _ => rfl) (fun o w e _ he => ?_)).bind (fun _ w hw => ?_)
    (fun e w hw => failed hw)
  · exact faulty_state (fun _ => rfl) _
  · rcases faulty_error he with hfault | he
    · exact o.2.after e (.inr hfault)
    · cases he
  · refine (after (q := .view rid) hw.1 (fun o _ => ?_) (fun _ _ _ => rfl) (fun o w e hw he => ?_)).mono (fun r v hv => ?_)
    · exact faulty_state (viewed_state rid) _
    · rcases faulty_error he with hfault | he
      · exact o.2.after e (.inr hfault)
      · exact absurd he (viewed_error hw)
    · cases r with
      | error e => exact failed hv
      | ok a => exact ⟨(alive hv.1).1, fun _ _ => (alive hv.1).2, fun _ h => (by cases h)⟩

theorem does_createRun (distinct : Distinct hash experimentId version) (hc : D.cellAt s id = some c)
    (hkey : cellKey c = (experimentId, version)) (hstatus : status c = some (.str "allocating")) {rid : String}
    (hid : deterministicRunId id = .ok rid) (hlive : D.live s rid = false) (scenario : String) (prepared : Prepared)
    (parent : Option String) :
    D.Does hash experimentId version (createRun scenario prepared rid parent) s (D.Ended s rid) := by
  have failed {α : Type} {e : Exn} {t : Lab σ ρ} (h : D.Undisturbed s t) (he : e.isConflict = false) :
      D.Ended s rid (.error e : Except Exn α) t := Ended.error_before hlive h he
  -- what is asked before the run is there
  have before {q : Inquiry} {t : Lab σ ρ} (ht : D.Undisturbed s t) (same : ∀ o t, (D.serve o q t).2 = t)
      (quiet : ∀ (t u : Lab σ ρ) a, created [⟨t, q, a, u⟩] = [])
      (fails : ∀ (o : { o : Chance // o.Orderly }) t e, (D.serve o.1 q t).1 = .error e → e.isConflict = false) :
      D.Does hash experimentId version (inquire q) t
        (fun r u => D.Undisturbed s u ∧ ∀ e, r = .error e → e.isConflict = false) :=
    does_read same quiet (fun u o htu => ⟨ht.trans htu, fun e he => fails o u e he⟩)
  refine Script.keeps_lift_bind (fun _ _ => ?_) (fun e he => ?_)
  · have select : D.Does hash experimentId version (selectCases scenario prepared) s
        (fun r u => D.Undisturbed s u ∧ ∀ e, r = .error e → e.isConflict = false) := by
      refine Script.keeps_ite (fun _ => ?_) (fun _ => ?_)
      · exact before (.refl s) (fun _ _ => rfl) (fun _ _ _ => rfl) (fun o _ e he => o.2.before e (.inr (.inl he)))
      · exact Script.keeps_done ⟨.refl s, fun _ h => (by cases h)⟩
    refine select.bind (fun selected t ht => ?_) (fun e t ht => failed ht.1 (ht.2 e rfl))
    refine Script.keeps_lift_bind (fun _ _ => ?_) (fun e he => ?_)
    · refine (before ht.1 (fun _ _ => rfl) (fun _ _ _ => rfl) (fun _ _ _ h => (by cases h))).bind
        (fun now t ht => ?_) (fun e t ht => failed ht.1 (ht.2 e rfl))
      refine (before (q := .validateSnapshot _) ht.1 (fun _ _ => rfl) (fun _ _ _ => rfl)
        (fun o _ e he => o.2.before e (.inr (.inr (.inl he))))).bind (fun _ t ht => ?_) (fun e t ht => failed ht.1 (ht.2 e rfl))
      refine (before (q := .validatePlans _) ht.1 (fun _ _ => rfl) (fun _ _ _ => rfl)
        (fun o _ e he => o.2.before e (.inr (.inr (.inl he))))).bind (fun _ t ht => ?_) (fun e t ht => failed ht.1 (ht.2 e rfl))
      refine (does_create (Φ := fun r u => (r = .ok () → u.experiments = s.experiments ∧ D.live u rid) ∧
          ∀ e, r = .error e → D.Undisturbed s u ∧ e.isConflict = false) distinct (ht.1.cellAt ▸ hc) hkey hstatus hid
        ((ht.1.2 rid).trans hlive) (fun u hu hborn => ⟨fun _ => ⟨hu.trans ht.1.1, hborn⟩, fun _ h => (by cases h)⟩)
        (fun e u he hu => ⟨fun h => (by cases h), fun e' he' => ?_⟩)).bind (fun _ t hborn => ?_) (fun e t h => ?_)
      · cases he'
        exact ⟨ht.1.trans hu, he⟩
      · obtain ⟨hexperiments, hborn⟩ := hborn.1 rfl
        exact ends_after hexperiments hborn _
      · exact failed (h.2 e rfl).1 (h.2 e rfl).2
    · cases (ensure_error_iff.1 he).2
      exact failed ht.1 rfl
  · cases (ensure_error_iff.1 he).2
    exact failed (.refl s) rfl

end Creation

/-! ### Allocating one cell -/

section Allocating
variable {D hash experimentId version} {s : Lab σ ρ} {id : String} {c : Document}

variable (D experimentId version) in
/-- A call that returns leaves the cell done with, and the others as they are. -/
def Settles (s : Lab σ ρ) (id : String) {α : Type} (r : Except Exn α) (t : Lab σ ρ) : Prop :=
  ∀ a, r = .ok a → (∀ other, other ≠ id → D.cellAt t other = D.cellAt s other) ∧
    ∃ c, D.cellAt t id = some c ∧ cellKey c = (experimentId, version) ∧ Done c

theorem Settles.error {α : Type} (e : Exn) (t : Lab σ ρ) :
    D.Settles experimentId version s id (.error e : Except Exn α) t := fun _ h => by cases h

theorem Settles.after {α : Type} {r : Except Exn α} {t u : Lab σ ρ} (h : D.Settles experimentId version t id r u)
    (others : ∀ other, other ≠ id → D.cellAt t other = D.cellAt s other) : D.Settles experimentId version s id r u := by
  intro a ha
  obtain ⟨same, done⟩ := h a ha
  exact ⟨fun other hne => (same other hne).trans (others other hne), done⟩

theorem Rewritten.others {d : Document} {t : Lab σ ρ} (h : D.Rewritten s id d t) (other : String) (hne : other ≠ id) :
    D.cellAt t other = D.cellAt s other := by
  rw [h.1, Function.update_of_ne hne]

theorem Rewritten.self {d : Document} {t : Lab σ ρ} (h : D.Rewritten s id d t) : D.cellAt t id = some d := by
  rw [h.1, Function.update_self]

/-- A cell that was rewritten to be done with. -/
theorem settles_of_rewritten {st : String} {c' : Document} {t : Lab σ ρ} (h : D.Rewritten s id (D.reads c') t)
    (hkey : cellKey c' = (experimentId, version)) (hstatus : status c' = some (.str st))
    (done : st ∈ ["allocated", "failed", "cancelled"]) : D.Settles experimentId version s id (.ok () : Except Exn Unit) t :=
  fun _ _ => ⟨h.others, _, h.self, (cellKey_reads D.lawful.reading).trans hkey,
    st, done, (status_reads D.lawful.reading).2 hstatus⟩

/-- A cell that was found to be done with. -/
theorem settles_of_found {st : String} {t : Lab σ ρ} (h : D.Undisturbed s t) (hc : D.cellAt s id = some c)
    (hkey : cellKey c = (experimentId, version)) (hstatus : status c = some (.str st))
    (done : st ∈ ["allocated", "failed", "cancelled"]) {α : Type} (a : α) :
    D.Settles experimentId version s id (.ok a : Except Exn α) t :=
  fun _ _ => ⟨fun _ _ => by rw [h.cellAt], c, h.cellAt ▸ hc, hkey, st, done, hstatus⟩

theorem does_completeClaimedCell (hc : D.cellAt s id = some c) (hkey : cellKey c = (experimentId, version)) {rid : String}
    (hid : deterministicRunId id = .ok rid) (hlive : D.live s rid) :
    D.Does hash experimentId version (completeClaimedCell id rid) s (D.Settles experimentId version s id) := by
  have completed : D.Does hash experimentId version (change (.complete id rid)) s
      (fun r t => D.Settles experimentId version s id r t ∧ ∀ e, r = .error e → D.Undisturbed s t) := by
    refine does_change rfl hc hkey (fun c' hc' => ?_) (fun c' t hc' ht => ?_) (fun e t _ ht => ?_)
    · have moved := completing_ok hc'
      exact fits_moved (changed_completing hc') hkey moved.2.1 (by decide) (fun _ _ _ => .inr rfl)
        (fun _ => ⟨rid, hid, moved.2.2.1, hlive⟩)
    · exact ⟨settles_of_rewritten ht ((cellKey_changed (changed_completing hc')).trans hkey) (completing_ok hc').2.1 (by decide),
        fun _ h => (by cases h)⟩
    · exact ⟨.error e.exn t, fun _ _ => ht⟩
  refine completed.handle (fun a t ht => ht.1) (fun e t ht => ?_)
  have hst := ht.2 e rfl
  refine Script.keeps_ite (fun _ => ?_) (fun _ => Script.keeps_done (.error e t))
  refine (does_getCell (Φ := fun r u => D.Undisturbed s u ∧ r = .ok (D.cellAt s id)) (fun u hu => ⟨hst.trans hu, ?_⟩)).bind
    (fun found u hu => ?_) (fun e u hu => .error e u)
  · rw [hst.cellAt]
  · obtain ⟨hsu, hfound⟩ := hu
    cases hfound
    rw [hc]
    refine Script.keeps_ite (fun h => Script.keeps_done ?_) (fun _ => Script.keeps_done (.error e u))
    exact settles_of_found hsu hc hkey h.1 (by decide) ()

theorem does_failCellSafely (hc : D.cellAt s id = some c) (hkey : cellKey c = (experimentId, version))
    (hlive : ∀ rid, deterministicRunId id = .ok rid → D.live s rid = false) (error : Exn) :
    D.Does hash experimentId version (failCellSafely id error) s (D.Settles experimentId version s id) := by
  have failed : D.Does hash experimentId version (change (.fail id error.message)) s
      (fun r t => D.Settles experimentId version s id r t ∧ ∀ e, r = .error e → D.Undisturbed s t) := by
    refine does_change rfl hc hkey (fun c' hc' => ?_) (fun c' t hc' ht => ?_) (fun e t _ ht => ?_)
    · refine fits_moved (changed_failing hc') hkey (failing_ok hc') (by decide) (fun rid hid hrid => ?_)
        (fun h => absurd h (by decide))
      rw [hlive rid hid] at hrid
      cases hrid
    · exact ⟨settles_of_rewritten ht ((cellKey_changed (changed_failing hc')).trans hkey) (failing_ok hc') (by decide),
        fun _ h => (by cases h)⟩
    · exact ⟨.error e.exn t, fun _ _ => ht⟩
  refine failed.handle (fun a t ht => ht.1) (fun e t ht => ?_)
  have hst := ht.2 e rfl
  refine Script.keeps_ite (fun _ => ?_) (fun _ => Script.keeps_done (.error e t))
  refine (does_getCell (Φ := fun r u => D.Undisturbed s u ∧ r = .ok (D.cellAt s id)) (fun u hu => ⟨hst.trans hu, ?_⟩)).bind
    (fun found u hu => ?_) (fun e u hu => .error e u)
  · rw [hst.cellAt]
  · obtain ⟨hsu, hfound⟩ := hu
    cases hfound
    refine Script.keeps_ite (fun h => Script.keeps_done ?_) (fun _ => Script.keeps_done (.error e u))
    rw [hc, Option.bind_some] at h
    rcases h with h | h
    · exact settles_of_found hsu hc hkey h (by decide) ()
    · exact settles_of_found hsu hc hkey h (by decide) ()

theorem does_createCellRun (distinct : Distinct hash experimentId version) (hc : D.cellAt s id = some c)
    (hkey : cellKey c = (experimentId, version)) (hstatus : status c = some (.str "allocating")) {rid : String}
    (hid : deterministicRunId id = .ok rid) (hlive : D.live s rid = false) (spec : Spec) (cell : Document) :
    D.Does hash experimentId version (createCellRun spec cell rid) s (D.Ended s rid) := by
  refine Script.keeps_lift_bind (fun scenario _ => ?_) (fun e he => ?_)
  · refine (does_read (q := .prepare spec cell) (Φ := fun r t => D.Undisturbed s t ∧ ∀ e, r = .error e → e.isConflict = false)
      (fun _ _ => rfl) (fun _ _ _ => rfl) (fun t o ht => ⟨ht, fun e he => o.2.before e (.inl he)⟩)).bind
      (fun prepared t ht => ?_) (fun e t ht => Ended.error_before hlive ht.1 (ht.2 e rfl))
    refine (does_createRun distinct (ht.1.cellAt ▸ hc) hkey hstatus hid ((ht.1.2 rid).trans hlive) scenario prepared none).bind
      (fun _ u hu => Script.keeps_done ?_) (fun e u hu => ?_)
    · exact ⟨hu.1.trans ht.1.1, fun _ _ => hu.2.1 _ rfl, fun _ h => (by cases h)⟩
    · refine ⟨hu.1.trans ht.1.1, fun _ h => (by cases h), fun e' he' => ?_⟩
      cases he'
      exact hu.2.2 e rfl
  · refine Ended.error_before hlive (.refl s) ?_
    split at he
    · cases he
      rfl
    · cases he

/-- A cell that is not claimed or allocated has no run. -/
theorem Sound.not_live (hs : D.Sound hash experimentId version s) (hc : D.cellAt s id = some c)
    (hkey : cellKey c = (experimentId, version)) {st : String} (hstatus : status c = some (.str st))
    (hne : st ≠ "allocating" ∧ st ≠ "allocated") {rid : String} (hid : deterministicRunId id = .ok rid) :
    D.live s rid = false := by
  by_contra hlive
  rw [Bool.not_eq_false] at hlive
  obtain ⟨d, hd, -, h⟩ := hs.claimed id rid (hs.known id c hc hkey).1 hid hlive
  cases hc.symm.trans hd
  rcases h with h | h
  · exact CellStore.str_ne hne.1 hstatus h
  · exact CellStore.str_ne hne.2 hstatus h

theorem claiming_ok {c c' : Document} (h : claiming c = some c') :
    status c' = some (.str "allocating") ∧ cellKey c' = cellKey c := by
  have changed : Changed (.claim "") "" c c' := changed_claiming h
  unfold claiming at h
  split at h
  · cases h
    exact ⟨status_withStatus c _, cellKey_changed changed⟩
  · cases h

theorem resetting_ok {c c' : Document} (h : resetting c = some c') :
    status c' = some (.str "pending") ∧ cellKey c' = cellKey c := by
  have changed : Changed (.reset "") "" c c' := changed_resetting h
  unfold resetting at h
  split at h
  · cases h
    exact ⟨status_withStatus c _, cellKey_changed changed⟩
  · cases h

theorem does_claimAndCreate (distinct : Distinct hash experimentId version) {cell : Document}
    (hc : D.cellAt s (cellId cell) = some c) (hkey : cellKey c = (experimentId, version))
    (hstatus : status c = some (.str "pending")) (spec : Spec) :
    D.Does hash experimentId version (claimAndCreate spec cell) s (D.Settles experimentId version s (cellId cell)) := by
  refine Script.keeps_given (fun _ h => h.sound) (fun hs => ?_)
  have unborn {rid : String} (hid : deterministicRunId (cellId cell) = .ok rid) : D.live s rid = false :=
    hs.not_live hc hkey hstatus (by decide) hid
  refine (does_attempt (r := .claim (cellId cell)) (Φ := fun r t => ∀ claimed, r = .ok claimed → claimed = true ∧
    ∃ c', claiming c = some c' ∧ D.Rewritten s (cellId cell) (D.reads c') t) rfl hc hkey (fun c' hc' => ?_)
    (fun c' t hc' ht _ h => ?_) (fun t hnone _ => ?_) (fun e t _ h => by cases h)).bind (fun claimed t ht => ?_)
    (fun e t _ => .error e t)
  · exact fits_moved (changed_claiming hc') hkey (claiming_ok hc').1 (by decide) (fun _ _ _ => .inl rfl)
      (fun h => absurd h (by decide))
  · cases h
    exact ⟨rfl, c', hc', ht⟩
  · rw [claiming, if_pos hstatus] at hnone
    cases hnone
  · obtain ⟨rfl, c', hc', hwritten⟩ := ht claimed rfl
    have hkey' : cellKey (D.reads c') = (experimentId, version) :=
      (cellKey_reads D.lawful.reading).trans ((claiming_ok hc').2.trans hkey)
    have hstatus' : status (D.reads c') = some (.str "allocating") :=
      (status_reads D.lawful.reading).2 (claiming_ok hc').1
    refine Script.keeps_lift_bind (fun rid hid => ?_) (fun e _ => .error e t)
    refine ((does_createCellRun distinct hwritten.self hkey' hstatus' hid ((hwritten.2 rid).trans (unborn hid)) spec
      cell).result (Ψ := fun r u => ∃ r', r = .ok r' ∧ D.Ended t rid r' u) (fun r u hu => ⟨r, rfl, hu⟩)).bind
      (fun r u hu => ?_) (fun e u h => by obtain ⟨_, h, _⟩ := h; cases h)
    obtain ⟨r', hr', ended⟩ := hu
    cases hr'
    have here : D.cellAt u (cellId cell) = some (D.reads c') := by
      rw [Deployment.cellAt, ended.1]
      exact hwritten.self
    have others (other : String) (hne : other ≠ cellId cell) : D.cellAt u other = D.cellAt s other := by
      rw [Deployment.cellAt, ended.1]
      exact hwritten.others other hne
    have complete (hlive : D.live u rid) : D.Does hash experimentId version (do
        completeClaimedCell (cellId cell) rid
        return Allotment.allocated) u (D.Settles experimentId version s (cellId cell)) :=
      (does_completeClaimedCell here hkey' hid hlive).bind
        (fun a v hv => Script.keeps_done (fun _ _ => (hv.after others) a rfl)) (fun e v _ => .error e v)
    cases r with
    | ok a => exact complete (ended.2.1 a rfl)
    | error e =>
      have hconflict := ended.2.2 e rfl
      refine Script.keeps_ite (fun h => complete (hconflict ▸ h)) (fun h => ?_)
      refine (does_failCellSafely here hkey' (fun rid' hid' => ?_) e).bind
        (fun a v hv => Script.keeps_done (fun _ _ => (hv.after others) a rfl)) (fun e v _ => .error e v)
      cases hid.symm.trans hid'
      rw [← hconflict]
      exact Bool.eq_false_iff.2 h

theorem does_allocateOne (distinct : Distinct hash experimentId version) {cell : Document}
    (hc : D.cellAt s (cellId cell) = some cell) (hkey : cellKey cell = (experimentId, version)) (spec : Spec) :
    D.Does hash experimentId version (allocateOne spec cell) s (D.Settles experimentId version s (cellId cell)) := by
  refine Script.keeps_given (fun _ h => h.sound) (fun hs => ?_)
  obtain ⟨-, st, known, hstatus⟩ := hs.known _ cell hc hkey
  have found : (status cell).getD (.str "pending") = .str st := by rw [hstatus]; rfl
  have is (text : String) : (status cell).getD (.str "pending") = .str text ↔ st = text := by
    rw [found]
    exact ⟨Value.str.inj, fun h => by rw [h]⟩
  refine Script.keeps_ite (fun h => Script.keeps_done ?_) (fun hdone => Script.keeps_ite (fun h => ?_)
    (fun hclaimed => Script.keeps_ite (fun h => ?_) (fun hpending => ?_)))
  · refine settles_of_found (.refl s) hc hkey hstatus ?_ _
    simp only [is] at h
    simpa [List.mem_cons, or_comm, or_assoc, or_left_comm] using h
  · have hallocating : status cell = some (.str "allocating") := by rw [hstatus, (is _).1 h]
    refine Script.keeps_lift_bind (fun rid hid => ?_) (fun e _ => .error e s)
    refine (does_read (q := .getRun rid) (Φ := fun r t => D.Undisturbed s t ∧ ∀ found, r = .ok found →
      D.live s rid = found.isSome) (fun _ _ => rfl) (fun _ _ _ => rfl) (fun t o ht => ⟨ht, fun found h => ?_⟩)).bind
      (fun found t ht => ?_) (fun e t _ => .error e t)
    · cases h
      exact (ht.2 rid).symm
    · have others (other : String) (_ : other ≠ cellId cell) : D.cellAt t other = D.cellAt s other := by rw [ht.1.cellAt]
      cases found with
      | some run =>
        refine (does_completeClaimedCell (ht.1.cellAt ▸ hc) hkey hid ((ht.1.2 rid).trans (ht.2 _ rfl))).bind
          (fun a v hv => Script.keeps_done (fun _ _ => (hv.after others) a rfl)) (fun e v _ => .error e v)
      | none =>
        have unborn : D.live t rid = false := (ht.1.2 rid).trans (ht.2 _ rfl)
        refine (does_attempt (r := .reset (cellId cell)) (Φ := fun r u => ∀ a, r = .ok a →
          ∃ c', resetting cell = some c' ∧ D.Rewritten t (cellId cell) (D.reads c') u) rfl (ht.1.cellAt ▸ hc) hkey
          (fun c' hc' => ?_) (fun c' u hc' hu _ _ => ⟨c', hc', hu⟩) (fun u hnone _ => ?_) (fun e u _ h => by cases h)).bind
          (fun a u hu => ?_) (fun e u _ => .error e u)
        · refine fits_moved (changed_resetting hc') hkey (resetting_ok hc').1 (by decide) (fun rid' hid' hlive => ?_)
            (fun h => absurd h (by decide))
          cases hid.symm.trans hid'
          rw [unborn] at hlive
          cases hlive
        · rw [resetting, if_pos hallocating] at hnone
          cases hnone
        · obtain ⟨c', hc', hwritten⟩ := hu a rfl
          refine (does_claimAndCreate distinct hwritten.self ((cellKey_reads D.lawful.reading).trans
            ((resetting_ok hc').2.trans hkey))
            ((status_reads D.lawful.reading).2 (resetting_ok hc').1) spec).mono (fun r v hv => hv.after (fun other hne => ?_))
          rw [hwritten.others other hne, ht.1.cellAt]
  · exact does_claimAndCreate distinct hc hkey (by rw [hstatus, (is _).1 h]) spec
  · refine absurd known ?_
    simp only [is, not_or] at hdone hclaimed hpending
    simp only [List.mem_cons, List.not_mem_nil, not_or]
    exact ⟨hpending, hclaimed, hdone.1, hdone.2.2, hdone.2.1, not_false⟩

end Allocating

/-! ### Allocation -/

section Allocation
variable {D hash experimentId version} {s : Lab σ ρ}

variable (D experimentId version) in
/-- Every cell of the experiment is done with. -/
def AllDone (t : Lab σ ρ) : Prop := ∀ id c, D.cellAt t id = some c → cellKey c = (experimentId, version) → Done c

theorem does_allocateCells (distinct : Distinct hash experimentId version) (spec : Spec) (cells : List Document)
    (nodup : (cells.map cellId).Nodup) (a : Allocation)
    (hcells : ∀ cell ∈ cells, D.cellAt s (cellId cell) = some cell ∧ cellKey cell = (experimentId, version)) :
    D.Does hash experimentId version (allocateCells spec cells a) s (fun r t => ∀ b, r = .ok b →
      (∀ other, other ∉ cells.map cellId → D.cellAt t other = D.cellAt s other) ∧
        ∀ cell ∈ cells, ∃ c, D.cellAt t (cellId cell) = some c ∧ Done c) := by
  induction cells generalizing a s with
  | nil => exact Script.keeps_done (fun _ _ => ⟨fun _ _ => rfl, fun _ h => by cases h⟩)
  | cons cell rest ih =>
    rw [List.map_cons, List.nodup_cons] at nodup
    obtain ⟨hc, hkey⟩ := hcells cell (List.mem_cons_self ..)
    refine (does_allocateOne distinct hc hkey spec).bind (fun outcome t ht => ?_) (fun e t _ _ h => by cases h)
    obtain ⟨others, c, hc', -, done⟩ := ht outcome rfl
    have fresh (other : String) (h : other ∈ rest.map cellId) : other ≠ cellId cell := fun heq => nodup.1 (heq ▸ h)
    refine (ih nodup.2 (a.note (cellId cell) outcome) (fun next hnext => ?_)).mono (fun r u hu b hb => ?_)
    · obtain ⟨hnext', hkey'⟩ := hcells next (List.mem_cons_of_mem _ hnext)
      exact ⟨(others _ (fresh _ (List.mem_map_of_mem hnext))).trans hnext', hkey'⟩
    · obtain ⟨same, alldone⟩ := hu b hb
      refine ⟨fun other hother => ?_, fun next hnext => ?_⟩
      · rw [List.map_cons, List.mem_cons, not_or] at hother
        exact (same other hother.2).trans (others other hother.1)
      · rcases List.mem_cons.1 hnext with rfl | hnext
        · exact ⟨c, (same _ nodup.1).trans hc', done⟩
        · exact alldone next hnext

theorem does_allocateLocked (distinct : Distinct hash experimentId version) :
    D.Does hash experimentId version (allocateLocked experimentId version) s
      (fun r t => ∀ a, r = .ok a → D.AllDone experimentId version t) := by
  refine (does_getSpec (Φ := fun _ t => D.Undisturbed s t) (fun _ t ht => ht)).bind (fun found t ht => ?_)
    (fun e t _ _ h => by cases h)
  cases found with
  | none => exact Script.keeps_done (fun _ h => by cases h)
  | some stored =>
    refine (does_read (q := .readSpec stored) (Φ := fun _ _ => True) (fun _ _ => rfl) (fun _ _ _ => rfl)
      (fun _ _ _ => trivial)).bind (fun spec t _ => ?_) (fun e t _ _ h => by cases h)
    refine (does_read (q := .admission spec) (Φ := fun _ _ => True) (fun _ _ => rfl) (fun _ _ _ => rfl)
      (fun _ _ _ => trivial)).bind (fun _ t _ => ?_) (fun e t _ _ h => by cases h)
    refine Script.keeps_given (fun _ h => h.sound) (fun hsound => ?_)
    refine (does_listCells (Φ := fun r u => D.Undisturbed t u ∧ ∀ ds, r = .ok ds → (ds.map cellId).Nodup ∧
      ∀ d, d ∈ ds ↔ D.cellAt t (cellId d) = some d ∧ cellKey d = (experimentId, version))
      (fun ds u hu nodup mem => ⟨hu, fun ds' h => ?_⟩)).bind (fun cells u hu => ?_) (fun e t _ _ h => by cases h)
    · cases h
      exact ⟨nodup, mem⟩
    obtain ⟨nodup, mem⟩ := hu.2 cells rfl
    refine (does_allocateCells distinct spec cells nodup {} (fun cell hcell => ?_)).bind (fun a v hv => ?_)
      (fun e t _ _ h => by cases h)
    · rw [hu.1.cellAt]
      exact (mem cell).1 hcell
    · have done : D.AllDone experimentId version v := by
        intro id c hget hkey
        by_cases hid : id ∈ cells.map cellId
        · obtain ⟨cell, hcell, rfl⟩ := List.mem_map.1 hid
          obtain ⟨c', hc', hdone⟩ := (hv a rfl).2 cell hcell
          cases hget.symm.trans hc'
          exact hdone
        · rw [(hv a rfl).1 id hid, hu.1.cellAt] at hget
          have hown : cellId c = id := D.lawful.keyed t.experiments hsound.inv id c hget
          exact absurd (List.mem_map.2 ⟨c, (mem c).2 ⟨hown.symm ▸ hget, hkey⟩, hown⟩) hid
      have still {w : Lab σ ρ} (hw : D.Undisturbed v w) : D.AllDone experimentId version w :=
        fun id c hget => done id c (hw.cellAt ▸ hget)
      refine (does_listCells (Φ := fun _ w => D.Undisturbed v w) (fun _ _ hw _ _ => hw)).bind (fun _ w hw => ?_)
        (fun e t _ _ h => by cases h)
      refine (does_listCells (Φ := fun _ x => D.Undisturbed v x) (fun _ _ hx _ _ => hw.trans hx)).bind
        (fun _ x hx => Script.keeps_done (fun _ _ => still hx)) (fun e t _ _ h => by cases h)

end Allocation

/-! ### Creation of an experiment -/

section Publication
variable {D hash experimentId version} {s : Lab σ ρ}

theorem textOf_of_get {d : Document} {key text : String} (h : d.get key = some (.str text)) : textOf d key = text := by
  rw [textOf, Document.text?, h, Option.bind_some, Value.text?, Value.str?]
  by_cases ht : text = ""
  · subst ht
    rfl
  · simp [Option.filter, ht]

theorem cellId_cellPayload (spec : Spec) (cell : Assignment × Nat) :
    (cellPayload hash spec cell).get "cell_id" = some (.str (specCellId hash spec cell)) := by
  simp [cellPayload, document, specCellId]

theorem status_cellPayload (spec : Spec) (cell : Assignment × Nat) :
    (cellPayload hash spec cell).get "allocation_status" = some (.str "pending") := by
  simp [cellPayload, document]

/-- What a publication is made of. -/
theorem mem_preparedCells {spec : Spec} {compiled : Compiled} {mode : String} {cells : List Document}
    (h : preparedCells hash spec compiled mode = .ok cells) {p : Document} (hp : p ∈ cells) :
    ∃ cell, cellId p = specCellId hash spec cell ∧ status p = some (.str "pending") := by
  obtain ⟨cell, -, hcell⟩ := exists_of_forall₂ (mapM_ok h).flip hp
  split at hcell
  · cases hcell
  · rw [← Except.ok.inj hcell]
    refine ⟨cell, textOf_of_get ?_, ?_⟩
    · rw [Table.get_set_ne _ _ (by decide), Table.get_set_ne _ _ (by decide), Table.get_set_ne _ _ (by decide)]
      exact cellId_cellPayload spec cell
    · rw [status, Table.get_set_ne _ _ (by decide), Table.get_set_ne _ _ (by decide), Table.get_set_ne _ _ (by decide)]
      exact status_cellPayload spec cell

theorem status_of_validateCell {p c : Document} (h : validateCell p = .ok c) {st : String}
    (hp : status p = some (.str st)) : status c = some (.str st) := by
  simp only [validateCell, except_bind_ok_iff, ensure_ok_iff, Except.ok.injEq, exists_const] at h
  obtain ⟨-, -, -, -, rfl⟩ := h
  rw [Document.setDefault, if_pos]
  · exact hp
  · rw [← status, hp]
    rfl

theorem does_publish {spec : Spec} (hspec : (spec.experimentId, spec.version) = (experimentId, version))
    {cells : List Document} (hcells : ∀ p ∈ cells, ∃ cell, cellId p = specCellId hash spec cell ∧
      status p = some (.str "pending")) :
    D.Does hash experimentId version (change (.publish spec.dump cells)) s (fun _ _ => True) := by
  refine (does_cells (Φ := fun _ _ => True) (fun t _ hsound => ?_)).bind (fun _ _ _ => Script.keeps_done trivial)
    (fun _ _ _ => trivial)
  refine Op.wp_mono (Op.wp_and (D.lawful.adds spec.dump cells t.experiments)
    (Op.wp_of_state (D.lawful.keeps (.publish spec.dump cells) t.experiments hsound.inv))) (fun reply u hu => ?_)
    (fun e u hu => ⟨hu.1, trivial⟩)
  obtain ⟨⟨kept, fresh⟩, inv⟩ := hu
  have new (id : String) (c : Document) (hget : D.store.cellAt u id = some c) :
      D.cellAt t id = some c ∨ (Genuine hash experimentId version id ∧ status c = some (.str "pending")) := by
    rcases fresh id c hget with hget | ⟨-, p, hp, c', hvalid, -, hid, rfl⟩
    · exact .inl hget
    · obtain ⟨cell, hcell, hpending⟩ := hcells p hp
      refine .inr ⟨⟨cell.1, cell.2, ?_⟩, (status_reads D.lawful.reading).2 (status_of_validateCell hvalid hpending)⟩
      rw [← hid, cellId_of_validateCell hvalid, hcell, specCellId, (Prod.mk.inj hspec).1, (Prod.mk.inj hspec).2]
  refine ⟨⟨inv, fun id c hget hkey => ?_, fun id rid genuine hid hlive => ?_, fun id c hget hkey hstatus => ?_⟩, trivial⟩
  · rcases new id c hget with hget | ⟨genuine, hpending⟩
    · exact hsound.known id c hget hkey
    · exact ⟨genuine, "pending", by decide, hpending⟩
  · obtain ⟨c, hget, rest⟩ := hsound.claimed id rid genuine hid hlive
    exact ⟨c, kept id c hget, rest⟩
  · rcases new id c hget with hget | ⟨-, hpending⟩
    · exact hsound.placed id c hget hkey hstatus
    · exact absurd hstatus (CellStore.str_ne (by decide) hpending)

theorem does_registerKey (spec : Spec) (key : Option String) :
    D.Does hash experimentId version (registerKey spec key) s (fun _ _ => True) := by
  cases key with
  | none => exact Script.keeps_done trivial
  | some key => exact does_read (fun _ _ => rfl) (fun _ _ _ => rfl) (fun _ _ _ => trivial)

theorem does_create_experiment (distinct : Distinct hash experimentId version) {spec : Spec}
    (hspec : (spec.experimentId, spec.version) = (experimentId, version)) (requestKey expectedPreview : Option String) :
    D.Does hash experimentId version (create hash spec requestKey expectedPreview) s
      (fun r t => ∀ a, r = .ok a → D.AllDone experimentId version t) := by
  have allocated {t : Lab σ ρ} : D.Does hash experimentId version (allocateLocked spec.experimentId spec.version) t
      (fun r t => ∀ a, r = .ok a → D.AllDone experimentId version t) := by
    rw [(Prod.mk.inj hspec).1, (Prod.mk.inj hspec).2]
    exact does_allocateLocked distinct
  have registered {t : Lab σ ρ} (key : Option String) : D.Does hash experimentId version (do
      registerKey spec key
      allocateLocked spec.experimentId spec.version) t (fun r t => ∀ a, r = .ok a → D.AllDone experimentId version t) :=
    (does_registerKey spec key).bind (fun _ _ _ => allocated) (fun e t _ _ h => by cases h)
  have seen (key : Option String) : D.Does hash experimentId version (registeredAs key) s (fun _ _ => True) := by
    cases key with
    | none => exact Script.keeps_done trivial
    | some key => exact does_read (fun _ _ => rfl) (fun _ _ _ => rfl) (fun _ _ _ => trivial)
  refine (seen _).bind (fun known t _ => ?_) (fun e t _ _ h => by cases h)
  refine Script.keeps_lift_bind (fun _ _ => ?_) (fun e _ _ h => by cases h)
  refine (does_getSpec (Φ := fun _ _ => True) (fun _ _ _ => trivial)).bind (fun found t _ => ?_) (fun e t _ _ h => by cases h)
  cases found with
  | some stored =>
    refine Script.keeps_lift_bind (fun _ _ => ?_) (fun e _ _ h => by cases h)
    refine (does_listCells (Φ := fun _ _ => True) (fun _ _ _ _ _ => trivial)).bind (fun existing t _ => ?_)
      (fun e t _ _ h => by cases h)
    refine Script.keeps_lift_bind (fun _ _ => ?_) (fun e _ _ h => by cases h)
    refine Script.keeps_lift_bind (fun _ _ => ?_) (fun e _ _ h => by cases h)
    refine (does_listCells (Φ := fun _ _ => True) (fun _ _ _ _ _ => trivial)).bind (fun listed t _ => ?_)
      (fun e t _ _ h => by cases h)
    refine Script.keeps_lift_bind (fun _ _ => ?_) (fun e _ _ h => by cases h)
    refine (does_read (q := .admission spec) (Φ := fun _ _ => True) (fun _ _ => rfl) (fun _ _ _ => rfl)
      (fun _ _ _ => trivial)).bind (fun _ t _ => registered _) (fun e t _ _ h => by cases h)
  | none =>
    refine (does_read (q := .compile spec) (Φ := fun _ _ => True) (fun _ _ => rfl) (fun _ _ _ => rfl)
      (fun _ _ _ => trivial)).bind (fun compiled t _ => ?_) (fun e t _ _ h => by cases h)
    refine Script.keeps_lift_bind (fun _ _ => ?_) (fun e _ _ h => by cases h)
    refine Script.keeps_lift_bind (fun _ _ => ?_) (fun e _ _ h => by cases h)
    refine (does_read (q := .supported spec) (Φ := fun _ _ => True) (fun _ _ => rfl) (fun _ _ _ => rfl)
      (fun _ _ _ => trivial)).bind (fun _ t _ => ?_) (fun e t _ _ h => by cases h)
    refine (does_registerKey spec _).bind (fun _ t _ => ?_) (fun e t _ _ h => by cases h)
    refine Script.keeps_lift_bind (fun cells hcells => ?_) (fun e _ _ h => by cases h)
    exact (does_publish hspec (fun p hp => mem_preparedCells hcells hp)).bind (fun _ t _ => allocated)
      (fun e t _ _ h => by cases h)

end Publication

end Deployment

/-! ### Every sequence of calls -/

/-- The cell has its run, or is given up and has none. -/
def Settled {σ ρ : Type} (D : Deployment σ ρ) (s : Lab σ ρ) (id : String) (c : Document) : Prop :=
  (status c = some (.str "allocated") ∧ ∃ rid, deterministicRunId id = .ok rid ∧ runId c = some (.str rid) ∧
      D.live s rid = true) ∨
    ((status c = some (.str "failed") ∨ status c = some (.str "cancelled")) ∧
      ∀ rid, deterministicRunId id = .ok rid → D.live s rid = false)

/-- The calls of `create` and `allocate` on one experiment. -/
def Allocates (hash : Value → String) (experimentId version : String) (x : Procedure Allocation) : Prop :=
  x = allocate experimentId version ∨ ∃ spec : Spec, (spec.experimentId, spec.version) = (experimentId, version) ∧
    ∃ requestKey expectedPreview, x = create hash spec requestKey expectedPreview

/-- The experiment is new: the store, after any requests, has no cell of it, and no run has the id of one. -/
structure Unused {σ ρ : Type} (D : Deployment σ ρ) (hash : Value → String) (experimentId version : String)
    (s : Lab σ ρ) : Prop where
  reached : ∃ requests, s.experiments = run D.store.step D.store.empty requests
  cells : ∀ id c, D.cellAt s id = some c → cellKey c ≠ (experimentId, version)
  runs : ∀ id rid, Deployment.Genuine hash experimentId version id → deterministicRunId id = .ok rid → D.live s rid = false

/-- From a new experiment on, however its calls are cut short, no run is created twice, each that is created is the
initial run of a cell, and a call that returns leaves every cell settled. -/
def OneInitialRun {σ ρ Ω : Type} (D : Deployment σ ρ) (serve : Ω → (q : Inquiry) → Op (Lab σ ρ) Exn (Finding q))
    (hash : Value → String) (experimentId version : String) : Prop :=
  ∀ s history t, Unused D hash experimentId version s →
    Sessions serve D.Undisturbed (fun x _ => Allocates hash experimentId version x) s history t →
      (created history).Nodup ∧
      (∀ rid ∈ created history, ∃ id, Deployment.Genuine hash experimentId version id ∧ deterministicRunId id = .ok rid) ∧
      ∀ x calls a u, Allocates hash experimentId version x → x.Completes serve D.Undisturbed t calls (.ok a) u →
        ∀ id c, D.cellAt u id = some c → cellKey c = (experimentId, version) → Settled D u id c

section
variable {σ ρ : Type} {D : Deployment σ ρ} {hash : Value → String} {experimentId version : String}

theorem Unused.kept {s : Lab σ ρ} (h : Unused D hash experimentId version s) : D.Kept hash experimentId version [] s := by
  obtain ⟨requests, hreached⟩ := h.reached
  refine ⟨⟨?_, fun id c hget hkey => absurd hkey (h.cells id c hget), fun id rid genuine hid hlive => ?_,
    fun id c hget hkey => absurd hkey (h.cells id c hget)⟩, List.nodup_nil, fun _ hrid => by cases hrid⟩
  · rw [hreached]
    exact run_keeps (fun s r hs => D.lawful.keeps r s hs) requests D.lawful.init
  · rw [h.runs id rid genuine hid] at hlive
    cases hlive

theorem settled_of_done {s : Lab σ ρ} (hs : D.Sound hash experimentId version s) {id : String} {c : Document}
    (hc : D.cellAt s id = some c) (hkey : cellKey c = (experimentId, version)) (done : Done c) : Settled D s id c := by
  obtain ⟨st, hst, hstatus⟩ := done
  simp only [List.mem_cons, List.not_mem_nil, or_false] at hst
  rcases hst with rfl | rfl | rfl
  · exact .inl ⟨hstatus, hs.placed id c hc hkey hstatus⟩
  · exact .inr ⟨.inl hstatus, fun rid hid => hs.not_live hc hkey hstatus (by decide) hid⟩
  · exact .inr ⟨.inr hstatus, fun rid hid => hs.not_live hc hkey hstatus (by decide) hid⟩

theorem does_allocates (distinct : Deployment.Distinct hash experimentId version) {x : Procedure Allocation}
    (hx : Allocates hash experimentId version x) (s : Lab σ ρ) :
    D.Does hash experimentId version x s (fun r t => ∀ a, r = .ok a → D.AllDone experimentId version t) := by
  rcases hx with rfl | ⟨spec, hspec, requestKey, expectedPreview, rfl⟩
  · exact Deployment.does_allocateLocked distinct
  · exact Deployment.does_create_experiment distinct hspec requestKey expectedPreview

theorem one_initial_run (D : Deployment σ ρ) (distinct : Deployment.Distinct hash experimentId version) :
    OneInitialRun D D.orderlyServe hash experimentId version := by
  intro s history t unused sessions
  have kept := sessions.keeps unused.kept (fun x _ u hx => (does_allocates distinct hx u).mono (fun _ _ _ => trivial))
  refine ⟨kept.once, fun rid hrid => (kept.owned rid hrid).2, fun x calls a u hx completes id c hget hkey => ?_⟩
  obtain ⟨kept', done⟩ := (does_allocates distinct hx t history kept).of_completes completes
  exact settled_of_done kept'.sound hget hkey (done a rfl id c hget hkey)

end

/-- In both stores every cell has at most one initial run, and an allocation that returns leaves each cell with its run
or without one, provided that `create_run` raises no conflict before the run is there and nothing else after. -/
theorem cells_have_one_run (dumps hash : Value → String) (experimentId version : String)
    (distinct : Deployment.Distinct hash experimentId version) :
    OneInitialRun (memoryDeployment dumps) (memoryDeployment dumps).orderlyServe hash experimentId version ∧
      OneInitialRun sqliteDeployment sqliteDeployment.orderlyServe hash experimentId version :=
  ⟨one_initial_run _ distinct, one_initial_run _ distinct⟩

/-- A hash that tells the first repeat from the others. -/
def repeatHash (v : Value) : String := if v.get? "repeat_index" = some (.int 0) then "sha256:0" else "sha256:1"

theorem distinct_repeatHash : Deployment.Distinct repeatHash "e" "1" := by
  have ids (id : String) : Deployment.Genuine repeatHash "e" "1" id → id = "sha256:0" ∨ id = "sha256:1" := by
    rintro ⟨a, index, rfl⟩
    rw [computeCellId, repeatHash]
    split
    · exact .inl rfl
    · exact .inr rfl
  have first : deterministicRunId "sha256:0" = .ok "run-exp-0" := by decide +kernel
  have second : deterministicRunId "sha256:1" = .ok "run-exp-1" := by decide +kernel
  intro a b rid ha hb hida hidb
  rcases ids a ha with rfl | rfl <;> rcases ids b hb with rfl | rfl
  · rfl
  · rw [first] at hida
    rw [second, ← hida] at hidb
    exact absurd (Except.ok.inj hidb) (by decide)
  · rw [second] at hida
    rw [first, ← hida] at hidb
    exact absurd (Except.ok.inj hidb) (by decide)
  · rfl

theorem sample_cells_have_one_run :
    OneInitialRun (memoryDeployment (fun _ => "")) (memoryDeployment (fun _ => "")).orderlyServe repeatHash "e" "1" ∧
      OneInitialRun sqliteDeployment sqliteDeployment.orderlyServe repeatHash "e" "1" :=
  cells_have_one_run (fun _ => "") repeatHash "e" "1" distinct_repeatHash

/-- A spec of one cell. -/
def plainSpec : Spec where
  experimentId := "e"
  version := "1"
  scenarioVersion := some "s@1"
  factors := []
  repeats := 1
  contentHash := "h"
  dump := sampleSpec
  identified := by decide +kernel

/-- The run can be created, and then the database is locked. -/
def lockedAfter : Chance where
  readSpec := .ok plainSpec
  compile := .ok { previewHash := "p", preparedRuns := (∅ : Table String Value).set "sha256:0" .null }
  readFault := some (.other { typeName := "OperationalError", message := "database is locked" })

theorem unused_empty (dumps hash : Value → String) (experimentId version : String) :
    Unused (memoryDeployment dumps) hash experimentId version ⟨{}, ∅⟩ where
  reached := ⟨[], rfl⟩
  cells _ _ h := by cases h
  runs _ _ _ _ := rfl

/-- The cell is marked failed although its run is there. -/
theorem failed_cell_has_run :
    ¬ OneInitialRun (memoryDeployment (fun _ => "")) (memoryDeployment (fun _ => "")).serve repeatHash "e" "1" := by
  intro h
  have evaluated : ((Script.ends (memoryDeployment (fun _ => "")).serve (List.replicate 30 lockedAfter)
      (create repeatHash plainSpec) ⟨{}, ∅⟩).map (fun r => (r.1.isOk,
        ((memoryDeployment (fun _ => "")).cellAt r.2 "sha256:0").bind status,
        ((memoryDeployment (fun _ => "")).cellAt r.2 "sha256:0").map cellKey,
        (memoryDeployment (fun _ => "")).live r.2 "run-exp-0"))) =
      some (true, some (.str "failed"), some ("e", "1"), true) := by
    decide +kernel
  obtain ⟨⟨r, t⟩, hends, hr⟩ := Option.map_eq_some_iff.1 evaluated
  simp only [Prod.mk.injEq] at hr
  obtain ⟨hok, hstatus, hkey, hlive⟩ := hr
  obtain ⟨c, hget, hkey⟩ := Option.map_eq_some_iff.1 hkey
  rw [hget, Option.bind_some] at hstatus
  cases r with
  | error e => cases hok
  | ok a =>
    obtain ⟨calls, completes⟩ := Script.completes_of_ends
      (Deployment.Undisturbed.refl (D := memoryDeployment (fun _ => ""))) hends
    have settled := (h _ [] _ (unused_empty _ _ _ _) .begin).2.2 _ calls a t
      (.inr ⟨plainSpec, rfl, none, none, rfl⟩) completes "sha256:0" c hget hkey
    rcases settled with ⟨hallocated, -⟩ | ⟨-, unborn⟩
    · exact CellStore.str_ne (by decide) hstatus hallocated
    · rw [unborn "run-exp-0" (by decide +kernel)] at hlive
      cases hlive

end Motte.Experiment
