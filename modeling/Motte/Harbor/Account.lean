import Motte.Foundation.Op
import Motte.Harbor.Trials

/-! Every trial is accounted for.

Each plan has one result. A directory that goes to a task with plans is handed out or
listed as left over, and one that goes to no task is listed; but a directory that goes to a
task without plans is in no list. -/
namespace Motte.Harbor
open Foundation

/-- What is owed for the plans and for the directories. -/
structure Accounted (files : Files) (plans : List Plan) (report : Report) : Prop where
  plans : (report.results.map (fun result => (result.trialId, result.taskKey, result.repeatIndex))).Perm
    (plans.map (fun plan => (plan.trialId, plan.taskKey, plan.repeatIndex)))
  directories : ∀ directory ∈ trialDirectories files,
    (report.results.filterMap TrialResult.sourceDirectory ++ report.unmapped.map Unmapped.directory).count directory = 1
  once : (report.results.filterMap TrialResult.sourceDirectory).Nodup

/-- No directory is matched to a task that has no plan. -/
def Planned (r : Reading) (files : Files) (plans : List Plan) : Prop :=
  ∀ directory ∈ trialDirectories files, ∀ ix payload key method, taskIndex r files = .ok ix →
    loadMapping r (files.get (trialPath directory "result.json")) "result.json" = .ok payload →
    trialMatch ix (nativePath payload) directory = .task key method → key ∈ plans.map Plan.taskKey

section
variable {r : Reading} {files : Files} {plans : List Plan} {items : List Observed} {ix : TaskIndex}

/-! ### Handing out -/

theorem handOut_nil (plans : List Plan) : handOut plans [] = (plans.map (fun plan => (plan, none)), []) := by
  induction plans with
  | nil => rfl
  | cons plan plans ih => rw [handOut, ih, List.map_cons]

theorem handOut_plans (plans : List Plan) (items : List Observed) : (handOut plans items).1.map Prod.fst = plans := by
  induction plans generalizing items with
  | nil => rfl
  | cons plan plans ih =>
    cases items with
    | nil => rw [handOut, List.map_cons, ih]
    | cons item items => rw [handOut, List.map_cons, ih]

/-- What is handed out and what is left over are the items. -/
theorem handOut_items (plans : List Plan) (items : List Observed) :
    (handOut plans items).1.filterMap Prod.snd ++ (handOut plans items).2 = items := by
  induction plans generalizing items with
  | nil => rfl
  | cons plan plans ih =>
    cases items with
    | nil =>
      rw [handOut, List.filterMap_cons_none rfl, handOut_nil, List.append_nil, List.filterMap_map]
      exact List.filterMap_eq_nil_iff.2 (fun _ _ => rfl)
    | cons item items => exact congrArg (item :: ·) (ih items)

theorem taskTrials_plans (assigned : List (String × Observed)) (key : String) (plans : List Plan) :
    ((taskTrials r assigned key plans).1.map Prod.fst).Perm plans := by
  unfold taskTrials
  rw [handOut_plans]
  exact List.perm_insertionSort _ _

theorem taskTrials_items (assigned : List (String × Observed)) (key : String) (plans : List Plan) :
    ((taskTrials r assigned key plans).1.filterMap Prod.snd ++ (taskTrials r assigned key plans).2).Perm
      ((ofKey Prod.fst assigned key).map Prod.snd) := by
  unfold taskTrials
  rw [handOut_items]
  exact List.perm_insertionSort _ _

/-! ### Results -/

/-- A result has the identity of its plan and the directory that the plan was handed. -/
theorem trialResult_ok {plan : Plan} {observed : Option Observed} {version : String} {cancelled : Bool} {result : TrialResult}
    (h : trialResult r files plan observed version cancelled = .ok result) :
    (result.trialId, result.taskKey, result.repeatIndex) = (plan.trialId, plan.taskKey, plan.repeatIndex) ∧
      result.sourceDirectory = observed.map Observed.directory := by
  cases observed with
  | none =>
    cases h
    exact ⟨rfl, rfl⟩
  | some item =>
    simp only [trialResult, observedResult, except_bind_ok_iff] at h
    obtain ⟨observation, -, workspace, -, times, -, usage, -, h⟩ := h
    split at h
    · simp only [except_bind_ok_iff] at h
      obtain ⟨_, hthrow, -⟩ := h
      cases hthrow
    · cases h
      exact ⟨rfl, rfl⟩

theorem results_ok {rows : List (Plan × Option Observed)} {version : String} {cancelled : Bool} {results : List TrialResult}
    (h : rows.mapM (fun row => trialResult r files row.1 row.2 version cancelled) = .ok results) :
    results.map (fun result => (result.trialId, result.taskKey, result.repeatIndex)) =
        (rows.map Prod.fst).map (fun plan => (plan.trialId, plan.taskKey, plan.repeatIndex)) ∧
      results.filterMap TrialResult.sourceDirectory = (rows.filterMap Prod.snd).map Observed.directory := by
  have hrows := mapM_ok h
  clear h
  induction hrows with
  | nil => exact ⟨rfl, rfl⟩
  | @cons row result rows results hrow _ ih =>
    obtain ⟨hidentity, hdirectory⟩ := trialResult_ok hrow
    refine ⟨by rw [List.map_cons, List.map_cons, List.map_cons, hidentity, ih.1], ?_⟩
    cases hobserved : row.2 with
    | none =>
      rw [hobserved] at hdirectory
      rw [List.filterMap_cons_none hdirectory, List.filterMap_cons_none hobserved, ih.2]
    | some item =>
      rw [hobserved] at hdirectory
      rw [List.filterMap_cons_some hdirectory, List.filterMap_cons_some hobserved, ih.2, List.map_cons]

/-! ### Placing -/

def placedDirectory : (String × Observed) ⊕ Unmapped → String
  | .inl row => row.2.directory
  | .inr row => row.directory

theorem placeDirectory_directory (directory : String) (payload : List (String × Value)) :
    placedDirectory (placeDirectory r ix directory payload) = directory := by
  unfold placeDirectory
  simp only
  cases trialMatch ix (nativePath payload) directory <;> rfl

theorem placed_partition (placed : List ((String × Observed) ⊕ Unmapped)) :
    (placed.map placedDirectory).Perm
      ((placed.filterMap Sum.getLeft?).map (fun row => row.2.directory) ++ (placed.filterMap Sum.getRight?).map Unmapped.directory) := by
  induction placed with
  | nil => exact .nil
  | cons p placed ih =>
    cases p with
    | inl row => exact ih.cons _
    | inr row => exact (ih.cons _).trans List.perm_middle.symm

/-- What a parse is made of: the index, the place of each directory, and the trials of each task. -/
theorem parse_ok {cancelled : Bool} {report : Report} (h : parseHarborFiles r files plans cancelled = .ok report) :
    ∃ ix placed, taskIndex r files = .ok ix ∧
      List.Forall₂ (fun directory p => ∃ payload, loadMapping r (files.get (trialPath directory "result.json")) "result.json" = .ok payload ∧
        placeDirectory r ix directory payload = p) (trialDirectories files) placed ∧
      (∀ tasks, tasks = (groupBy Plan.taskKey plans).rows.map
          (fun task => (task.1, taskTrials r (placed.filterMap Sum.getLeft?) task.1 task.2)) →
        (tasks.flatMap (fun task => task.2.1)).mapM (fun row => trialResult r files row.1 row.2 parserVersion cancelled) =
            .ok report.results ∧
          report.unmapped = placed.filterMap Sum.getRight? ++ tasks.flatMap (fun task => task.2.2.map (unplanned r task.1))) := by
  simp only [parseHarborFiles, except_bind_ok_iff, except_pure_ok_iff] at h
  obtain ⟨ix, hix, placed, hplaced, results, hresults, rfl⟩ := h
  refine ⟨ix, placed, hix, (mapM_ok hplaced).imp (fun directory p hp => ?_), fun tasks htasks => ?_⟩
  · simp only [except_bind_ok_iff, except_pure_ok_iff] at hp
    exact hp
  · rw [htasks]
    exact ⟨hresults, rfl⟩

theorem placed_directories {directories : List String} {placed : List ((String × Observed) ⊕ Unmapped)}
    (h : List.Forall₂ (fun directory p => ∃ payload, loadMapping r (files.get (trialPath directory "result.json")) "result.json" = .ok payload ∧
      placeDirectory r ix directory payload = p) directories placed) : placed.map placedDirectory = directories := by
  induction h with
  | nil => rfl
  | cons hp _ ih =>
    obtain ⟨payload, -, rfl⟩ := hp
    rw [List.map_cons, ih, placeDirectory_directory]

theorem directories_nodup (files : Files) : (trialDirectories files).Nodup :=
  (List.perm_insertionSort _ _).nodup_iff.2 (List.nodup_dedup _)

section
variable {assigned : List (String × Observed)} {tasks : List (String × List (Plan × Option Observed) × List Observed)}

/-- The tasks together hold the plans. -/
theorem tasks_plans (htasks : tasks = (groupBy Plan.taskKey plans).rows.map (fun task => (task.1, taskTrials r assigned task.1 task.2))) :
    ((tasks.flatMap (fun task => task.2.1)).map Prod.fst).Perm plans := by
  rw [htasks, List.map_flatMap, List.flatMap_map]
  exact (List.Perm.flatMap_left _ (fun task _ => taskTrials_plans assigned task.1 task.2)).trans flatMap_groupBy

/-- The tasks together hold what was assigned to a task that has a plan. -/
theorem tasks_items (htasks : tasks = (groupBy Plan.taskKey plans).rows.map (fun task => (task.1, taskTrials r assigned task.1 task.2))) :
    ((tasks.flatMap (fun task => task.2.1)).filterMap Prod.snd ++ tasks.flatMap (fun task => task.2.2)).Perm
      ((assigned.filter (fun row => row.1 ∈ plans.map Plan.taskKey)).map Prod.snd) := by
  rw [htasks, List.filterMap_flatMap, List.flatMap_map, List.flatMap_map]
  refine (List.flatMap_append_perm _ _ _).trans ?_
  refine (List.Perm.flatMap_left _ (fun task _ => taskTrials_items assigned task.1 task.2)).trans ?_
  have hkeys : (groupBy Plan.taskKey plans).rows.flatMap (fun task => (ofKey Prod.fst assigned task.1).map Prod.snd) =
      (((groupBy Plan.taskKey plans).rows.map Prod.fst).flatMap (ofKey Prod.fst assigned)).map Prod.snd := by
    rw [List.flatMap_map, List.map_flatMap]
  rw [hkeys]
  refine ((flatMap_ofKey (groupBy Plan.taskKey plans).nodup).map Prod.snd).trans ?_
  refine List.Perm.of_eq (congrArg (List.map Prod.snd) (List.filter_congr fun row _ => ?_))
  exact decide_eq_decide.2 mem_groupBy_keys

end

/-- What is listed of the directories: all but those of tasks without a plan. -/
theorem report_directories {cancelled : Bool} {report : Report} {placed : List ((String × Observed) ⊕ Unmapped)}
    (h : ∀ tasks, tasks = (groupBy Plan.taskKey plans).rows.map
        (fun task => (task.1, taskTrials r (placed.filterMap Sum.getLeft?) task.1 task.2)) →
      (tasks.flatMap (fun task => task.2.1)).mapM (fun row => trialResult r files row.1 row.2 parserVersion cancelled) =
          .ok report.results ∧
        report.unmapped = placed.filterMap Sum.getRight? ++ tasks.flatMap (fun task => task.2.2.map (unplanned r task.1))) :
    (report.results.filterMap TrialResult.sourceDirectory ++ report.unmapped.map Unmapped.directory).Perm
      (((placed.filterMap Sum.getLeft?).filter (fun row => row.1 ∈ plans.map Plan.taskKey)).map (fun row => row.2.directory) ++
        (placed.filterMap Sum.getRight?).map Unmapped.directory) := by
  obtain ⟨hresults, hunmapped⟩ := h _ rfl
  rw [(results_ok hresults).2, hunmapped, List.map_append, List.map_flatMap]
  have hleft : ∀ task : String × List (Plan × Option Observed) × List Observed,
      (task.2.2.map (unplanned r task.1)).map Unmapped.directory = task.2.2.map Observed.directory := by
    intro task
    rw [List.map_map]
    rfl
  simp only [hleft]
  rw [← List.map_flatMap, ← List.append_assoc, List.append_assoc]
  refine (List.perm_append_comm.append_left _).trans ?_
  rw [← List.append_assoc, ← List.map_append]
  refine ((tasks_items rfl).map Observed.directory).append_right _ |>.trans ?_
  rw [List.map_map]
  rfl

/-- Where a directory is placed, from the task it is matched to. -/
theorem placeDirectory_task {directory key method : String} {payload : List (String × Value)}
    (h : trialMatch ix (nativePath payload) directory = .task key method) :
    ∃ item, placeDirectory r ix directory payload = .inl (key, item) ∧ item.directory = directory := by
  unfold placeDirectory
  simp only [h]
  exact ⟨_, rfl, rfl⟩

theorem placeDirectory_assigned {directory key : String} {payload : List (String × Value)} {item : Observed}
    (h : placeDirectory r ix directory payload = .inl (key, item)) :
    ∃ method, trialMatch ix (nativePath payload) directory = .task key method := by
  unfold placeDirectory at h
  simp only at h
  cases hmatch : trialMatch ix (nativePath payload) directory with
  | task key' method =>
    rw [hmatch] at h
    cases h
    exact ⟨method, rfl⟩
  | ambiguous head candidates =>
    rw [hmatch] at h
    cases h
  | unmapped =>
    rw [hmatch] at h
    cases h

theorem mem_getLeft {α β : Type} {placed : List (α ⊕ β)} {a : α} : a ∈ placed.filterMap Sum.getLeft? ↔ .inl a ∈ placed := by
  rw [List.mem_filterMap]
  constructor
  · rintro ⟨p, hp, h⟩
    cases p with
    | inl b =>
      cases h
      exact hp
    | inr b => cases h
  · intro h
    exact ⟨_, h, rfl⟩

end

section
variable {r : Reading} {files : Files} {plans : List Plan}

variable {cancelled : Bool} {report : Report}

theorem planned_of_accounted (h : parseHarborFiles r files plans cancelled = .ok report)
    (haccounted : Accounted files plans report) : Planned r files plans := by
  obtain ⟨ix, placed, hix, hplaced, hreport⟩ := parse_ok h
  have hpartition := placed_partition placed
  rw [placed_directories hplaced] at hpartition
  obtain ⟨hassigned, -, hapart⟩ := List.nodup_append.1 (hpartition.nodup_iff.1 (directories_nodup files))
  intro directory hmem ix' payload key method hix' hpayload hmatch
  rw [hix] at hix'
  cases hix'
  obtain ⟨p, hp, payload', hpayload', hplace⟩ := exists_of_forall₂ hplaced hmem
  rw [hpayload] at hpayload'
  cases hpayload'
  obtain ⟨item, hitem, rfl⟩ := placeDirectory_task (r := r) hmatch
  rw [hitem] at hplace
  subst hplace
  have hrow := mem_getLeft.2 hp
  have hlisted : item.directory ∈ report.results.filterMap TrialResult.sourceDirectory ++ report.unmapped.map Unmapped.directory := by
    rw [← List.count_pos_iff, haccounted.directories _ hmem]
    exact Nat.one_pos
  rw [(report_directories hreport).mem_iff, List.mem_append] at hlisted
  obtain hlisted | hlisted := hlisted
  · obtain ⟨row, hrow', hsame⟩ := List.mem_map.1 hlisted
    obtain ⟨hrow', hkey⟩ := List.mem_filter.1 hrow'
    rw [List.inj_on_of_nodup_map hassigned hrow' hrow hsame] at hkey
    exact of_decide_eq_true hkey
  · exact absurd rfl (hapart _ (List.mem_map_of_mem hrow) _ hlisted)

theorem accounted_of_planned (h : parseHarborFiles r files plans cancelled = .ok report) (hplanned : Planned r files plans) :
    Accounted files plans report := by
  obtain ⟨ix, placed, hix, hplaced, hreport⟩ := parse_ok h
  have hpartition := placed_partition placed
  rw [placed_directories hplaced] at hpartition
  have hall : (placed.filterMap Sum.getLeft?).filter (fun row => row.1 ∈ plans.map Plan.taskKey) = placed.filterMap Sum.getLeft? := by
    refine List.filter_eq_self.2 fun row hrow => ?_
    obtain ⟨key, item⟩ := row
    obtain ⟨directory, hmem, payload, hpayload, hplace⟩ := exists_of_forall₂ hplaced.flip (mem_getLeft.1 hrow)
    obtain ⟨method, hmatch⟩ := placeDirectory_assigned hplace
    exact decide_eq_true (hplanned directory hmem ix payload key method hix hpayload hmatch)
  have htotal := report_directories hreport
  rw [hall] at htotal
  have hsame := htotal.trans hpartition.symm
  have hnodup := hsame.nodup_iff.2 (directories_nodup files)
  obtain ⟨hresults, -⟩ := hreport _ rfl
  refine ⟨?_, fun directory hmem => ?_, (List.nodup_append.1 hnodup).1⟩
  · rw [(results_ok hresults).1]
    exact (tasks_plans rfl).map _
  · exact List.count_eq_one_of_mem hnodup (hsame.mem_iff.2 hmem)

end

/-- A parse accounts for every trial exactly when no directory is matched to a task without a plan. -/
theorem accounted_iff {r : Reading} {files : Files} {plans : List Plan} {cancelled : Bool} {report : Report}
    (h : parseHarborFiles r files plans cancelled = .ok report) : Accounted files plans report ↔ Planned r files plans :=
  ⟨planned_of_accounted h, accounted_of_planned h⟩

/-! A manifest that still has a task the plan has not, and a directory that ran its copy. -/

def staleManifest : String := "\x7b\"tasks\": \x7b\"old\": \x7b\"directory\": \"solve\"\x7d\x7d\x7d"

def staleReading : Reading where
  decode data := if data.all (· < 128) then some (String.ofList (data.map (fun b => Char.ofNat b.toNat))) else none
  loads text :=
    if text = staleManifest then .ok (.obj [("tasks", .obj [("old", .obj [("directory", .str "solve")])])])
    else .error (.decode "Expecting value" 0)
  float _ := none
  str _ := ""
  repr v := match v with
    | .str text => "'" ++ text ++ "'"
    | _ => ""
  sha256 _ := ""
  duration _ _ := .ok none

def staleFiles : Files where
  rows := [("frozen-tasks/manifest.json", staleManifest.toList.map (fun c => UInt8.ofNat c.toNat)),
    ("harbor/trials/solve__a1/trial.log", [])]
  nodup := by decide

def stalePlans : List Plan := [{ trialId := "trial-1", taskKey := "new", repeatIndex := 0 }]

theorem stale_parses : ∃ report, parseHarborFiles staleReading staleFiles stalePlans false = .ok report := by
  have hsome : (parseHarborFiles staleReading staleFiles stalePlans false).toOption.isSome = true := by decide +kernel
  cases h : parseHarborFiles staleReading staleFiles stalePlans false with
  | ok report => exact ⟨report, rfl⟩
  | error e =>
    rw [h] at hsome
    cases hsome

theorem accounted_iff_stale : ∃ report, parseHarborFiles staleReading staleFiles stalePlans false = .ok report ∧
    (Accounted staleFiles stalePlans report ↔ Planned staleReading staleFiles stalePlans) := by
  obtain ⟨report, h⟩ := stale_parses
  exact ⟨report, h, accounted_iff h⟩

/-- A directory can be lost without an error. -/
theorem directory_lost : ¬ ∀ r files plans cancelled report, (plans.map Plan.trialId).Nodup →
    parseHarborFiles r files plans cancelled = .ok report → Accounted files plans report := by
  intro hall
  obtain ⟨report, h⟩ := stale_parses
  have hplanned := planned_of_accounted h (hall _ _ _ _ _ (List.nodup_singleton _) h)
  have hmatch : (match taskIndex staleReading staleFiles with
      | .ok ix => decide (trialMatch ix .null "solve__a1" = .task "old" "frozen_dir")
      | .error _ => false) = true := by decide +kernel
  cases hix : taskIndex staleReading staleFiles with
  | error e =>
    rw [hix] at hmatch
    cases hmatch
  | ok ix =>
    rw [hix] at hmatch
    have hmem : "solve__a1" ∈ trialDirectories staleFiles := by decide +kernel
    have hkey := hplanned "solve__a1" hmem ix [] "old" "frozen_dir" hix rfl (of_decide_eq_true hmatch)
    exact absurd hkey (by decide)

end Motte.Harbor
