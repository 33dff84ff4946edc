import Motte.Migration.UnitEffect

/-! One unit after the other.

The units of a package and their order depend on the package alone; what is decided on
each of them depends on the store that the call has found. -/
namespace Motte.Migration
open Foundation

/-! ### The units of a package -/

/-- A unit of a package, before anything is decided. -/
inductive SourceUnit where
  | record (r : SourceRecord)
  | reject (rejected : RejectedSourceRecord)

namespace SourceUnit

def recordType : SourceUnit → String
  | .record r => r.recordType
  | .reject rejected => rejected.recordType

def unitRef : SourceUnit → String
  | .record r => r.unitRef
  | .reject rejected => rejected.unitRef

def sortKey (u : SourceUnit) : Nat ×ₗ String ×ₗ String :=
  toLex (typeRank u.recordType, toLex (u.recordType, u.unitRef))

/-- The unit, with what is decided on it in this store. -/
def decided (E : Setup) (t : Target) : SourceUnit → ImportUnit
  | .record r => .planned (unitDecision E t r)
  | .reject rejected => .loadReject rejected

end SourceUnit

/-- The units in the order in which they are imported. -/
def sortedUnits (S : LoadedSource) : List SourceUnit :=
  (S.rejected.map SourceUnit.reject ++ S.records.map SourceUnit.record).insertionSort (fun a b => a.sortKey ≤ b.sortKey)

theorem unitDecision_record (E : Setup) (t : Target) (r : SourceRecord) : (unitDecision E t r).record = r := by
  unfold unitDecision
  split
  · rfl
  · unfold ledgerDecision
    split
    · split <;> rfl
    · split
      · split
        · rfl
        · split <;> rfl
      · rfl

theorem decided_sortKey (E : Setup) (t : Target) (u : SourceUnit) : (u.decided E t).sortKey = u.sortKey := by
  cases u with
  | record r =>
    simp only [SourceUnit.decided, ImportUnit.sortKey, ImportUnit.recordType, ImportUnit.unitRef, SourceUnit.sortKey,
      SourceUnit.recordType, SourceUnit.unitRef, unitDecision_record]
  | reject => rfl

theorem orderedUnits_eq (E : Setup) (t : Target) (S : LoadedSource) :
    orderedUnits (unitDecisions E t S) = (sortedUnits S).map (SourceUnit.decided E t) := by
  unfold orderedUnits sortedUnits
  rw [List.map_insertionSort _ (fun a b : ImportUnit => a.sortKey ≤ b.sortKey) (SourceUnit.decided E t) _
    (fun a _ b _ => by rw [decided_sortKey, decided_sortKey])]
  rw [List.map_append, List.map_map, List.map_map]
  rfl

theorem mem_sortedUnits {S : LoadedSource} {r : SourceRecord} : .record r ∈ sortedUnits S ↔ r ∈ S.records := by
  unfold sortedUnits
  rw [List.mem_insertionSort, List.mem_append, List.mem_map, List.mem_map]
  constructor
  · rintro (⟨_, _, h⟩ | ⟨r', hr', h⟩)
    · cases h
    · cases h
      exact hr'
  · exact fun h => .inr ⟨r, h, rfl⟩

section
variable {E : Setup} {S : LoadedSource} {w v : World}

/-! ### The effect of a unit -/

/-- What a unit does to the store. -/
def unitEffect (E : Setup) (S : LoadedSource) (session : Session) (u : ImportUnit) (t : Target) : Except Fault Target :=
  match u with
  | .loadReject _ => .ok t
  | .planned unit =>
    match unit.decision with
    | .create => recordEffect E S session unit.record t
    | .reused =>
      if unit.record.recordType = "run" ∧ (t.mappings.get unit.record.mappingKey).isNone then
        commitEffect (runRow E S unit.record) t
      else .ok t
    | .conflicted | .rejected => .ok t

/-- The record of a unit that is to be created. -/
def ImportUnit.created? : ImportUnit → Option SourceRecord
  | .planned ⟨r, .create, _⟩ => some r
  | _ => none

/-- How a unit ends. -/
structure UnitEnded (E : Setup) (S : LoadedSource) (u : ImportUnit) (w : World) (outcome : Except Fault Target)
    (w' : World) : Prop where
  effect : unitEffect E S w.session u w.target = outcome
  target : ∀ t, outcome = .ok t → w'.target = t
  committed : ∀ t, outcome = .ok t → w'.session.committedArtifacts =
    (match u.created? with
      | some r => commitsAfter E S r w.session.committedArtifacts
      | none => w.session.committedArtifacts)
  prepared : ∀ t, outcome = .ok t → (w'.session.scoreRowsByRun, w'.session.scoreRejects) =
    (match u.created? with
      | some r => preparedAfter E S r w.session w.target
      | none => (w.session.scoreRowsByRun, w.session.scoreRejects))
  resolves : w'.session.Resolves
  trail : ∀ t ∈ w'.trail, t ∈ w.trail ∨ outcome = .ok t ∨
    ∃ r, u.created? = some r ∧ Midway E S w.session r w.target t
  landings : ∃ ls, w'.landings = w.landings ++ ls ∧ ∀ l ∈ ls, ∃ r, u.created? = some r ∧
    l = ⟨r.runRef E, importedRunId (r.runRef E)⟩ ∧ r.attached ∧ (w.target.runs.get l.runId).isSome

theorem Ended.unit {r : SourceRecord} {diagnostic : Option String} {outcome : Except Fault Target}
    (h : Ended E S r w outcome v) : UnitEnded E S (.planned ⟨r, .create, diagnostic⟩) w outcome v where
  effect := h.effect
  target := h.target
  committed := h.committed
  prepared := h.prepared
  resolves := h.resolves
  trail := by
    intro t ht
    rcases h.trail t ht with hold | hend | hmid
    · exact .inl hold
    · exact .inr (.inl hend)
    · exact .inr (.inr ⟨r, rfl, hmid⟩)
  landings := by
    obtain ⟨ls, hls, hall⟩ := h.landings
    exact ⟨ls, hls, fun l hl => ⟨r, rfl, hall l hl⟩⟩

/-- A unit that is decided before, and for which at most its row is put. -/
theorem UnitEnded.predecided {u : ImportUnit} (hnone : u.created? = none) {outcome : Except Fault Target}
    (heffect : unitEffect E S w.session u w.target = outcome) (htarget : ∀ t, outcome = .ok t → v.target = t)
    (hcommitted : v.session.committedArtifacts = w.session.committedArtifacts)
    (hrows : v.session.scoreRowsByRun = w.session.scoreRowsByRun)
    (hrejects : v.session.scoreRejects = w.session.scoreRejects) (hresolves : v.session.Resolves)
    (htrail : ∀ t ∈ v.trail, t ∈ w.trail ∨ outcome = .ok t) (hlandings : v.landings = w.landings) :
    UnitEnded E S u w outcome v where
  effect := heffect
  target := htarget
  committed := fun _ _ => by rw [hnone]; exact hcommitted
  prepared := fun _ _ => by rw [hnone, hrows, hrejects]
  resolves := hresolves
  trail := fun t ht => (htrail t ht).imp_right Or.inl
  landings := ⟨[], by rw [hlandings, List.append_nil], fun _ hl => by cases hl⟩

theorem preDecide_silent (outcome : Outcome) (diagnostic : Option String) (w : World) :
    (preDecide outcome diagnostic).wp w (fun _ v => Silent w v) (fun _ _ => False) := by
  refine Op.wp_bind.2 (Op.wp_modify.2 ?_)
  split
  · exact ⟨rfl, rfl, rfl, rfl, rfl, rfl, rfl⟩
  · exact ⟨rfl, rfl, rfl, rfl, rfl, rfl, rfl⟩

theorem UnitEnded.of_silent {u : ImportUnit} (hnone : u.created? = none) (hresolves : w.session.Resolves)
    (heffect : unitEffect E S w.session u w.target = .ok w.target) (hsilent : Silent w v) :
    UnitEnded E S u w (.ok v.target) v := by
  refine .predecided hnone (by rw [heffect, hsilent.target]) (fun t ht => Except.ok.inj ht) hsilent.committed
    hsilent.rows hsilent.rejects ?_ (fun t ht => .inl (hsilent.trail ▸ ht)) hsilent.landings
  unfold Session.Resolves
  rw [hsilent.ids]
  exact hresolves

/-- A unit whose record was imported before. -/
theorem reused_ends (hresolves : w.session.Resolves) (unit : PlannedUnit) (hreused : unit.decision = .reused) :
    (do restoreRow E S unit.record; preDecide .reused unit.diagnostic : Task Unit).wp w
      (fun _ w' => UnitEnded E S (.planned unit) w (.ok w'.target) w')
      (fun e w' => UnitEnded E S (.planned unit) w (.error e) w') := by
  have hnone : (ImportUnit.planned unit).created? = none := by
    unfold ImportUnit.created?
    split
    · rename_i h
      cases h
      cases hreused
    · rfl
  have heffect : unitEffect E S w.session (.planned unit) w.target =
      if unit.record.recordType = "run" ∧ (w.target.mappings.get unit.record.mappingKey).isNone then
        commitEffect (runRow E S unit.record) w.target
      else .ok w.target := by
    rw [unitEffect]
    simp only [hreused]
  refine Op.wp_bind.2 (Op.wp_bind.2 (Op.wp_gets.2 (Op.wp_ite (fun hlost => ?_) (fun hkept => ?_))))
  · rw [if_pos hlost] at heffect
    refine Op.wp_bind.2 (Op.wp_lift.2 ⟨fun _ hvalid => ?_, fun e hinvalid => ?_⟩)
    · have hm : (runRow E S unit.record).valid = true := ensure_ok_iff.1 hvalid
      have hfree : w.target.mappings.get (runRow E S unit.record).mappingKey = none := Option.isNone_iff_eq_none.1 hlost.2
      refine Op.wp_bind.2 (Op.wp_gets.2 ?_)
      rw [show w.target.mappings.get (mappingOf E S unit.record "run" (importedRunId unit.record.sourceId) none
        none).mappingKey = none from hfree]
      refine Op.wp_modify.2 (Op.wp_mono (preDecide_silent _ _ _) (fun _ v hv => ?_) (fun _ _ h => h.elim))
      refine .predecided hnone ?_ (fun t ht => Except.ok.inj ht) hv.committed hv.rows hv.rejects ?_ ?_ hv.landings
      · rw [heffect, commitEffect, if_pos hm, Target.withMapping, hfree, hv.target]
        rfl
      · unfold Session.Resolves
        rw [hv.ids]
        exact hresolves
      · intro t ht
        rw [hv.trail] at ht
        rcases List.mem_append.1 ht with hold | hnew
        · exact .inl hold
        · rw [List.mem_singleton.1 hnew, hv.target]
          exact .inr rfl
    · obtain ⟨hbad, rfl⟩ := ensure_error_iff.1 hinvalid
      have hm : ¬(runRow E S unit.record).valid = true := hbad
      exact .predecided hnone (by rw [heffect, commitEffect, if_neg hm]) (fun t ht => by cases ht) rfl rfl rfl
        hresolves (fun t ht => .inl ht) rfl
  · rw [if_neg hkept] at heffect
    exact Op.wp_pure.2 (Op.wp_mono (preDecide_silent _ _ w) (fun _ v hv => .of_silent hnone hresolves heffect hv)
      (fun _ _ h => h.elim))

/-- Counting a unit changes nothing that it leaves half done. -/
theorem Midway.counted {session : Session} {n : Nat} {r : SourceRecord} {t t' : Target}
    (h : Midway E S { session with createUnits := n } r t t') : Midway E S session r t t' := by
  cases h with
  | file artifact imported placed => exact .file artifact imported placed
  | cases isRun status absent read split => exact .cases isRun status absent read split
  | pass isScore found verdict given absent => exact .pass isScore found verdict given absent

/-- Every unit ends with its effect. -/
theorem processUnit_ends (hresolves : w.session.Resolves) (u : ImportUnit) :
    (processUnit E S u).wp w (fun _ w' => UnitEnded E S u w (.ok w'.target) w')
      (fun e w' => UnitEnded E S u w (.error e) w') := by
  have hdone (hnone : u.created? = none) (heffect : unitEffect E S w.session u w.target = .ok w.target)
      (outcome : Outcome) (diagnostic : Option String) :
      (preDecide outcome diagnostic).wp w (fun _ w' => UnitEnded E S u w (.ok w'.target) w')
        (fun e w' => UnitEnded E S u w (.error e) w') :=
    Op.wp_mono (preDecide_silent _ _ w) (fun _ v hv => .of_silent hnone hresolves heffect hv) (fun _ _ h => h.elim)
  cases u with
  | loadReject rejected => exact hdone rfl rfl _ _
  | planned unit =>
    obtain ⟨r, decision, diagnostic⟩ := unit
    cases decision with
    | create =>
      refine Op.wp_bind.2 (Op.wp_modify.2 ?_)
      have hcounted := applyUnit_ends (E := E) (S := S)
        (w := { w with session := { w.session with createUnits := w.session.createUnits + 1 } }) hresolves r
      refine Op.wp_mono hcounted (fun _ v hv => ?_) (fun e v hv => ?_)
      · exact Ended.unit ⟨hv.effect, hv.target, hv.committed, hv.prepared, hv.resolves,
          fun t ht => (hv.trail t ht).imp_right (Or.imp_right Midway.counted), hv.landings⟩
      · exact Ended.unit ⟨hv.effect, hv.target, hv.committed, hv.prepared, hv.resolves,
          fun t ht => (hv.trail t ht).imp_right (Or.imp_right Midway.counted), hv.landings⟩
    | reused => exact reused_ends hresolves _ rfl
    | conflicted => exact hdone rfl rfl _ _
    | rejected => exact hdone rfl rfl _ _

/-! ### Runs of units -/

theorem unit_ok (hresolves : w.session.Resolves) {u : ImportUnit} (h : processUnit E S u w = (.ok (), v)) :
    UnitEnded E S u w (.ok v.target) v :=
  (Op.wp_of_ok h).1 (processUnit_ends hresolves u)

theorem unit_error (hresolves : w.session.Resolves) {u : ImportUnit} {e : Fault}
    (h : processUnit E S u w = (.error e, v)) : UnitEnded E S u w (.error e) v :=
  (Op.wp_of_error h).1 (processUnit_ends hresolves u)

theorem processUnits_cons_ok {u : ImportUnit} {us : List ImportUnit} :
    processUnits E S (u :: us) w = (.ok (), v) ↔
      ∃ m, processUnit E S u w = (.ok (), m) ∧ processUnits E S us m = (.ok (), v) := by
  constructor
  · intro h
    obtain ⟨_, m, hm, hrest⟩ := Op.bind_ok_iff.1 h
    exact ⟨m, hm, hrest⟩
  · rintro ⟨m, hm, hrest⟩
    exact Op.bind_ok_iff.2 ⟨(), m, hm, hrest⟩

/-- Whatever is left on the way was left by one unit, after those before it. -/
theorem trail_located {us : List ImportUnit} (hresolves : w.session.Resolves) {t : Target}
    (ht : t ∈ (processUnits E S us w).2.trail) :
    t ∈ w.trail ∨ ∃ done u rest m, us = done ++ u :: rest ∧ processUnits E S done w = (.ok (), m) ∧
      m.session.Resolves ∧
      ((∃ v, processUnit E S u m = (.ok (), v) ∧ v.target = t) ∨
        ∃ r, u.created? = some r ∧ Midway E S m.session r m.target t) := by
  induction us generalizing w with
  | nil => exact .inl ht
  | cons u us ih =>
    have hhead {v : World} {outcome : Except Fault Target} (hend : UnitEnded E S u w outcome v) (hv : t ∈ v.trail)
        (hok : ∀ t', outcome = .ok t' → processUnit E S u w = (.ok (), v)) :
        t ∈ w.trail ∨ ∃ done u' rest m, u :: us = done ++ u' :: rest ∧ processUnits E S done w = (.ok (), m) ∧
          m.session.Resolves ∧
          ((∃ v, processUnit E S u' m = (.ok (), v) ∧ v.target = t) ∨
            ∃ r, u'.created? = some r ∧ Midway E S m.session r m.target t) := by
      rcases hend.trail t hv with hold | hnow | hmid
      · exact .inl hold
      · exact .inr ⟨[], u, us, w, rfl, rfl, hresolves, .inl ⟨v, hok t hnow, hend.target t hnow⟩⟩
      · exact .inr ⟨[], u, us, w, rfl, rfl, hresolves, .inr hmid⟩
    rcases hu : processUnit E S u w with ⟨e | _, v⟩
    · have hrun : processUnits E S (u :: us) w = (.error e, v) := Op.bind_of_error hu
      rw [hrun] at ht
      exact hhead (unit_error hresolves hu) ht (fun _ h => by cases h)
    · have hrun : processUnits E S (u :: us) w = processUnits E S us v := Op.bind_of_ok hu
      rw [hrun] at ht
      have hend := unit_ok hresolves hu
      rcases ih hend.resolves ht with hold | ⟨done, u', rest, m, hsplit, hdone, hm, hend'⟩
      · exact hhead hend hold (fun _ _ => hu)
      · exact .inr ⟨u :: done, u', rest, m, by rw [hsplit, List.cons_append], processUnits_cons_ok.2 ⟨v, hu, hdone⟩,
          hm, hend'⟩

end

end Motte.Migration
