import Mathlib.Algebra.Order.BigOperators.Group.List
import Motte.Calibration.Report

/-! What a calibration report counts, and what opens the gate.

Each criterion of each reviewed sample is found once, and the report is nothing but the
numbers of these findings. Whether a judge is eligible depends on them and on its calls
alone, and no pass is eligible but through a calibration that met every threshold. -/
namespace Motte.Calibration
open Foundation

/-! ### Findings -/

/-- What was found of a sample, if its observation can be read. -/
def findingsOf (observed : Table String Observed) (sample : CalibrationSample) : List (String × Finding) :=
  match readingOf observed sample.sampleId with
  | .ok r => sampleFindings sample r
  | .error _ => []

/-- What was found of the samples that people reviewed. -/
def CalibrationRun.findings (run : CalibrationRun) : List (String × Finding) :=
  run.calibration.humanReviewed.flatMap (findingsOf run.observed)

/-- The findings of a criterion, counted. -/
def tallied (found : List (String × Finding)) (criterionId : String) : CriterionConfusion where
  compared := found.countP (fun f => f.1 = criterionId && f.2.isCompared)
  truePass := found.count (criterionId, .truePass)
  falsePass := found.count (criterionId, .falsePass)
  trueFail := found.count (criterionId, .trueFail)
  falseFail := found.count (criterionId, .falseFail)
  missingEvidence := found.count (criterionId, .missingEvidence)
  refusals := found.count (criterionId, .refusal)
  errors := found.count (criterionId, .error)

section Counting
variable {found : List (String × Finding)} {criterionId other : String} {f : Finding}

theorem tallied_count (found : List (String × Finding)) (criterionId : String) (f : Finding) :
    (tallied found criterionId).count f = tallied (found ++ [(criterionId, f)]) criterionId := by
  cases f <;> simp [tallied, CriterionConfusion.count, List.countP_append, List.count_append, Finding.isCompared]

theorem tallied_other (h : other ≠ criterionId) :
    tallied (found ++ [(criterionId, f)]) other = tallied found other := by
  have hne : criterionId ≠ other := fun heq => h heq.symm
  simp [tallied, List.countP_append, List.count_append, hne]

/-- What holds before anything is found, and stays when one more thing is found of this criterion or of another,
holds of the counters of what was found. -/
theorem tallied_induction {P : List (String × Finding) → CriterionConfusion → Prop} (nil : P [] {})
    (own : ∀ found f c, P found c → P (found ++ [(criterionId, f)]) (c.count f))
    (another : ∀ found name f c, criterionId ≠ name → P found c → P (found ++ [(name, f)]) c)
    (found : List (String × Finding)) : P found (tallied found criterionId) := by
  induction found using List.reverseRecOn with
  | nil => exact nil
  | append_singleton found last ih =>
    obtain ⟨name, f⟩ := last
    by_cases h : criterionId = name
    · subst h
      rw [← tallied_count]
      exact own found f _ ih
    · rw [tallied_other h]
      exact another found name f _ h ih

/-- What is compared of a criterion is one of four. -/
theorem tallied_compared (found : List (String × Finding)) (criterionId : String) :
    (tallied found criterionId).truePass + (tallied found criterionId).falsePass + (tallied found criterionId).trueFail +
      (tallied found criterionId).falseFail = (tallied found criterionId).compared := by
  refine tallied_induction (P := fun _ c => c.truePass + c.falsePass + c.trueFail + c.falseFail = c.compared)
    rfl (fun found f c h => ?_) (fun _ _ _ _ _ h => h) found
  cases f <;> simp only [CriterionConfusion.count] <;> omega

/-- What is found of a criterion is one of four. -/
theorem tallied_all (found : List (String × Finding)) (criterionId : String) :
    (tallied found criterionId).compared + (tallied found criterionId).missingEvidence +
      (tallied found criterionId).refusals + (tallied found criterionId).errors =
        found.countP (fun f => f.1 = criterionId) := by
  refine tallied_induction (P := fun found c =>
    c.compared + c.missingEvidence + c.refusals + c.errors = found.countP (fun f => f.1 = criterionId))
    rfl (fun found f c h => ?_) (fun found name f c hne h => ?_) found
  · rw [List.countP_append, List.countP_singleton]
    cases f <;> simp only [CriterionConfusion.count, decide_true, if_true] <;> omega
  · rw [List.countP_append, List.countP_singleton, if_neg (by simpa using fun heq => hne heq.symm)]
    exact h

/-- Counted criterion by criterion, everything is counted once. -/
theorem sum_countP (q : Finding → Bool) {names : List String} (hnames : names.Nodup)
    (covered : ∀ f ∈ found, f.1 ∈ names) :
    (names.map (fun name => found.countP (fun f => f.1 = name && q f.2))).sum = found.countP (fun f => q f.2) := by
  have hall : found.filter (fun f => decide (f.1 ∈ names)) = found :=
    List.filter_eq_self.2 (fun f hf => decide_eq_true (covered f hf))
  have hgroups := (@flatMap_ofKey String (String × Finding) _ Prod.fst found names hnames).countP_eq (fun f => q f.2)
  rw [hall, List.countP_flatMap] at hgroups
  rw [← hgroups]
  congr 1
  refine List.map_congr_left (fun name _ => ?_)
  rw [Function.comp_apply, ofKey, List.countP_filter]
  exact List.countP_congr (fun f _ => by rw [Bool.and_comm])

end Counting

/-! ### The tally -/

/-- The tally of these findings, with counters for these criteria. -/
structure Tallied (names : List String) (found : List (String × Finding)) (t : Tally) : Prop where
  names : t.counters.rows.map Prod.fst = names
  counters : ∀ row ∈ t.counters.rows, row.2 = tallied found row.1
  compared : t.compared = found.countP (fun f => f.2.isCompared)
  disagreements : t.disagreements = found.countP (fun f => f.2.disagrees)
  refusals : t.refusals = found.countP (fun f => f.2 = .refusal)
  errors : t.errors = found.countP (fun f => f.2 = .error)
  missingEvidence : t.missingEvidence = found.countP (fun f => f.2 = .missingEvidence)

section Tallies
variable {names : List String} {found : List (String × Finding)} {t t' : Tally} {criterionId : String} {f : Finding}
  {observed : Table String Observed} {samples : List CalibrationSample}

theorem Tallied.count (h : Tallied names found t) (hname : criterionId ∈ names) (f : Finding) :
    Tallied names (found ++ [(criterionId, f)]) (t.count criterionId f) := by
  have hkey : criterionId ∈ t.counters.rows.map Prod.fst := by
    rw [h.names]
    exact hname
  constructor
  · rw [Tally.count, Table.set, Table.assign_keys, if_pos hkey]
    exact h.names
  · intro row hrow
    have hget := Table.get_of_mem hrow
    rw [Tally.count, Table.get_set] at hget
    split at hget
    · rename_i heq
      obtain ⟨⟨name, c⟩, hc, hname⟩ := List.mem_map.1 hkey
      dsimp only at hname
      rw [hname] at hc
      rw [Table.get_of_mem hc, Option.getD_some] at hget
      rw [← Option.some.inj hget, heq, ← tallied_count, ← h.counters _ hc]
    · rename_i hne
      rw [h.counters row (Table.mem_of_get hget)]
      exact (tallied_other hne).symm
  · rw [List.countP_append, List.countP_singleton, ← h.compared]
    rfl
  · rw [List.countP_append, List.countP_singleton, ← h.disagreements]
    rfl
  · rw [List.countP_append, List.countP_singleton, ← h.refusals]
    simp [Tally.count]
  · rw [List.countP_append, List.countP_singleton, ← h.errors]
    simp [Tally.count]
  · rw [List.countP_append, List.countP_singleton, ← h.missingEvidence]
    simp [Tally.count]

theorem Tallied.counts (h : Tallied names found t) {more : List (String × Finding)} (hnames : ∀ f ∈ more, f.1 ∈ names) :
    Tallied names (found ++ more) (more.foldl (fun t f => t.count f.1 f.2) t) := by
  induction more generalizing found t with
  | nil =>
    rw [List.append_nil]
    exact h
  | cons f more ih =>
    have hstep := ih (h.count (hnames f (.head _)) f.2) (fun g hg => hnames g (.tail _ hg))
    rw [List.append_assoc] at hstep
    exact hstep

theorem mem_sampleFindings {sample : CalibrationSample} {r : Reading} {found : String × Finding}
    (h : found ∈ sampleFindings sample r) : found.1 ∈ sample.expectedCriteria.rows.map Prod.fst := by
  obtain ⟨row, hrow, rfl⟩ := List.mem_map.1 h
  exact List.mem_map_of_mem hrow

/-- Counting the samples counts their findings. -/
theorem Tallied.run (h : Tallied names found t) (counted : samples.foldlM (countSample observed) t = .ok t')
    (hnames : ∀ sample ∈ samples, ∀ name ∈ sample.expectedCriteria.rows.map Prod.fst, name ∈ names) :
    Tallied names (found ++ samples.flatMap (findingsOf observed)) t' ∧
      ∀ sample ∈ samples, ∃ r, readingOf observed sample.sampleId = .ok r := by
  induction samples generalizing found t with
  | nil =>
    rw [List.foldlM_nil, except_pure_ok_iff] at counted
    rw [← counted, List.flatMap_nil, List.append_nil]
    exact ⟨h, fun sample hs => by cases hs⟩
  | cons sample samples ih =>
    rw [List.foldlM_cons, except_bind_ok_iff] at counted
    obtain ⟨next, hnext, hrest⟩ := counted
    rw [countSample, except_bind_ok_iff] at hnext
    obtain ⟨r, hr, hnext⟩ := hnext
    cases hnext
    have hfound : findingsOf observed sample = sampleFindings sample r := by
      unfold findingsOf
      rw [hr]
    have hnamed : ∀ f ∈ sampleFindings sample r, f.1 ∈ names :=
      fun f hf => hnames sample (.head _) f.1 (mem_sampleFindings hf)
    have hcounted := h.counts hnamed
    obtain ⟨htallied, hread⟩ := ih hcounted hrest (fun s hs => hnames s (.tail _ hs))
    rw [List.flatMap_cons, hfound, ← List.append_assoc]
    refine ⟨htallied, fun s hs => ?_⟩
    rcases List.mem_cons.1 hs with rfl | hs
    · exact ⟨r, hr⟩
    · exact hread s hs

/-- Before the first sample every counter is zero. -/
theorem emptyCounters_zero (samples : List CalibrationSample) :
    ∀ row ∈ (emptyCounters samples).rows, row.2 = {} := by
  unfold emptyCounters
  induction samples.flatMap (fun sample => sample.expectedCriteria.rows.map Prod.fst) using List.reverseRecOn with
  | nil =>
    intro row hrow
    cases hrow
  | append_singleton names name ih =>
    intro row hrow
    rw [List.foldl_append] at hrow
    have hget := Table.get_of_mem hrow
    rw [List.foldl_cons, List.foldl_nil, Table.get_set] at hget
    split at hget
    · exact (Option.some.inj hget).symm
    · exact ih row (Table.mem_of_get hget)

/-- There is a counter for each criterion that is expected of some sample. -/
theorem mem_emptyCounters {name : String} :
    name ∈ (emptyCounters samples).rows.map Prod.fst ↔
      ∃ sample ∈ samples, name ∈ sample.expectedCriteria.rows.map Prod.fst := by
  rw [← List.mem_flatMap]
  unfold emptyCounters
  induction samples.flatMap (fun sample => sample.expectedCriteria.rows.map Prod.fst) using List.reverseRecOn with
  | nil => rfl
  | append_singleton names last ih =>
    rw [List.foldl_append, List.foldl_cons, List.foldl_nil, Table.set, Table.assign_keys, List.mem_append,
      List.mem_singleton]
    split
    · rename_i hin
      rw [ih]
      exact ⟨.inl, fun h => h.elim id (fun heq => ih.1 (heq ▸ hin))⟩
    · rw [List.mem_append, List.mem_singleton, ih]

theorem tallied_start (samples : List CalibrationSample) :
    Tallied ((emptyCounters samples).rows.map Prod.fst) [] { counters := emptyCounters samples } :=
  ⟨rfl, emptyCounters_zero samples, rfl, rfl, rfl, rfl, rfl⟩

end Tallies

/-! ### What a report says -/

section Reports
variable {fmt : Format} {run : CalibrationRun} {report : CalibrationReport} {policy policy' : CalibrationPolicy}

/-- A policy that is accepted is one of those that are registered. -/
theorem validatePolicy_ok (h : validatePolicy policy = .ok policy') : policy' = policy ∧ policy ∈ calibrationPolicies := by
  rw [validatePolicy, except_bind_ok_iff] at h
  obtain ⟨registered, hregistered, h⟩ := h
  split at h
  · cases h
  · rename_i hsame
    cases h
    rw [policyFor] at hregistered
    split at hregistered
    · rename_i found hfound
      cases hregistered
      rw [not_not.1 hsame]
      exact ⟨rfl, List.mem_of_find?_eq_some hfound⟩
    · cases hregistered

/-- The thresholds are the same for every rubric. -/
theorem thresholds (h : policy ∈ calibrationPolicies) :
    policy = { rubricId := policy.rubricId, rubricVersion := policy.rubricVersion } := by
  simp only [calibrationPolicies, List.mem_cons, List.not_mem_nil, or_false] at h
  obtain rfl | rfl | rfl := h <;> rfl

/-- A report that is built is the tally of the findings. -/
theorem build_ok (built : buildCalibrationReport fmt run = .ok report) :
    ∃ policy ∈ calibrationPolicies, ∃ t,
      Tallied ((emptyCounters run.calibration.samples).rows.map Prod.fst) run.findings t ∧
      (∀ sample ∈ run.calibration.humanReviewed, ∃ r, readingOf run.observed sample.sampleId = .ok r) ∧
      report = qualifyJudge fmt (tallyReport fmt run policy
        (missingCoverage run.calibration policy = [], missingCoverage run.calibration policy) t) := by
  rw [buildCalibrationReport, except_bind_ok_iff] at built
  obtain ⟨given, -, built⟩ := built
  rw [except_bind_ok_iff] at built
  obtain ⟨policy, hpolicy, built⟩ := built
  obtain ⟨rfl, hregistered⟩ := validatePolicy_ok hpolicy
  rw [except_bind_ok_iff] at built
  obtain ⟨coverage, hcoverage, built⟩ := built
  rw [except_bind_ok_iff] at built
  obtain ⟨t, ht, built⟩ := built
  rw [covers, except_bind_ok_iff] at hcoverage
  obtain ⟨again, hagain, hcoverage⟩ := hcoverage
  obtain ⟨rfl, -⟩ := validatePolicy_ok hagain
  cases hcoverage
  cases built
  obtain ⟨htallied, hread⟩ := (tallied_start run.calibration.samples).run ht (fun sample hs name hname =>
    mem_emptyCounters.2 ⟨sample, (List.mem_filter.1 hs).1, hname⟩)
  exact ⟨_, hregistered, t, htallied, hread, rfl⟩

/-! ### Conservation -/

/-- The samples that people reviewed expect a criterion, so many times. -/
def CalibrationRun.expecting (run : CalibrationRun) (criterionId : String) : ℕ :=
  run.calibration.humanReviewed.countP (fun sample => criterionId ∈ sample.expectedCriteria.rows.map Prod.fst)

/-- The report counts each criterion of each reviewed sample once, and says nothing else. -/
structure Conserved (run : CalibrationRun) (report : CalibrationReport) : Prop where
  once : (report.perCriterion.map Prod.fst).Nodup
  criteria : ∀ name, name ∈ report.perCriterion.map Prod.fst ↔
    ∃ sample ∈ run.calibration.samples, name ∈ sample.expectedCriteria.rows.map Prod.fst
  counted : ∀ row ∈ report.perCriterion, row.2 = tallied run.findings row.1
  compared : ∀ row ∈ report.perCriterion,
    row.2.truePass + row.2.falsePass + row.2.trueFail + row.2.falseFail = row.2.compared
  expected : ∀ row ∈ report.perCriterion,
    row.2.compared + row.2.missingEvidence + row.2.refusals + row.2.errors = run.expecting row.1
  total : (report.perCriterion.map (fun row =>
      row.2.compared + row.2.missingEvidence + row.2.refusals + row.2.errors)).sum =
    (run.calibration.humanReviewed.map (·.expectedCriteria.rows.length)).sum
  disagreement : report.disagreementRate =
    rate (run.findings.countP (fun f => f.2.disagrees)) (run.findings.countP (fun f => f.2.isCompared))
  error : report.errorRate = rate (run.findings.countP (fun f => f.2 = .error)) run.findings.length
  refusal : report.refusalRate = rate (run.findings.countP (fun f => f.2 = .refusal)) run.findings.length
  missingEvidence : report.missingEvidenceRate =
    rate (run.findings.countP (fun f => f.2 = .missingEvidence)) run.findings.length

/-- Where a sample can be read, each criterion it expects is found once. -/
theorem findingsOf_keys {observed : Table String Observed} {sample : CalibrationSample} {r : Reading}
    (h : readingOf observed sample.sampleId = .ok r) :
    (findingsOf observed sample).map Prod.fst = sample.expectedCriteria.rows.map Prod.fst := by
  rw [findingsOf, h]
  simp [sampleFindings, Function.comp_def]

theorem countP_findingsOf {observed : Table String Observed} {sample : CalibrationSample} {r : Reading}
    (h : readingOf observed sample.sampleId = .ok r) (name : String) :
    (findingsOf observed sample).countP (fun f => f.1 = name) =
      if name ∈ sample.expectedCriteria.rows.map Prod.fst then 1 else 0 := by
  have hcount : (findingsOf observed sample).countP (fun f => f.1 = name) =
      ((findingsOf observed sample).map Prod.fst).count name := by
    rw [List.count, List.countP_map]
    exact List.countP_congr (fun f _ => by simp)
  rw [hcount, findingsOf_keys h, sample.expectedCriteria.nodup.count]

theorem countP_findings (hread : ∀ sample ∈ run.calibration.humanReviewed, ∃ r, readingOf run.observed sample.sampleId = .ok r)
    (name : String) : run.findings.countP (fun f => f.1 = name) = run.expecting name := by
  unfold CalibrationRun.findings CalibrationRun.expecting
  rw [List.countP_flatMap]
  generalize run.calibration.humanReviewed = samples at hread
  induction samples with
  | nil => rfl
  | cons sample samples ih =>
    obtain ⟨r, hr⟩ := hread sample (.head _)
    rw [List.map_cons, List.sum_cons, ih (fun s hs => hread s (.tail _ hs)), Function.comp_apply,
      countP_findingsOf hr, List.countP_cons, Nat.add_comm]
    simp

theorem length_findings (hread : ∀ sample ∈ run.calibration.humanReviewed, ∃ r, readingOf run.observed sample.sampleId = .ok r) :
    run.findings.length = (run.calibration.humanReviewed.map (·.expectedCriteria.rows.length)).sum := by
  unfold CalibrationRun.findings
  rw [List.length_flatMap]
  congr 1
  refine List.map_congr_left (fun sample hs => ?_)
  obtain ⟨r, hr⟩ := hread sample hs
  have hkeys := congrArg List.length (findingsOf_keys hr)
  rw [List.length_map, List.length_map] at hkeys
  exact hkeys

/-- What is found of a reviewed sample is of a criterion that has a counter. -/
theorem findings_named {f : String × Finding} (h : f ∈ run.findings) :
    f.1 ∈ (emptyCounters run.calibration.samples).rows.map Prod.fst := by
  obtain ⟨sample, hs, hf⟩ := List.mem_flatMap.1 h
  refine mem_emptyCounters.2 ⟨sample, (List.mem_filter.1 hs).1, ?_⟩
  unfold findingsOf at hf
  split at hf
  · exact mem_sampleFindings hf
  · cases hf

section Sums
variable {names : List String} {found : List (String × Finding)} {t : Tally}

theorem Tallied.sum (h : Tallied names found t) (part : CriterionConfusion → ℕ) :
    (t.counters.rows.map (fun row => part row.2)).sum = (names.map (fun name => part (tallied found name))).sum := by
  rw [← h.names, List.map_map]
  congr 1
  exact List.map_congr_left (fun row hrow => by rw [h.counters row hrow]; rfl)

/-- What is counted with the criteria is all there is. -/
theorem Tallied.total (h : Tallied names found t) (hnames : ∀ f ∈ found, f.1 ∈ names) :
    (t.counters.rows.map (fun row => row.2.compared + row.2.missingEvidence + row.2.refusals + row.2.errors)).sum =
      found.length := by
  have hnodup : names.Nodup := by
    rw [← h.names]
    exact t.counters.nodup
  rw [h.sum (fun c => c.compared + c.missingEvidence + c.refusals + c.errors)]
  have hall := sum_countP (fun _ => true) hnodup hnames
  rw [List.countP_true] at hall
  rw [← hall]
  congr 1
  refine List.map_congr_left (fun name _ => ?_)
  rw [tallied_all]
  exact List.countP_congr (fun f _ => by rw [Bool.and_true])

theorem Tallied.judged (h : Tallied names found t) (hnames : ∀ f ∈ found, f.1 ∈ names) :
    t.compared + (t.counters.rows.map (fun row => row.2.missingEvidence + row.2.refusals + row.2.errors)).sum =
      found.length := by
  have hnodup : names.Nodup := by
    rw [← h.names]
    exact t.counters.nodup
  have hcompared : t.compared = (t.counters.rows.map (fun row => row.2.compared)).sum := by
    rw [h.compared, h.sum (·.compared), ← sum_countP Finding.isCompared hnodup hnames]
    rfl
  rw [hcompared, ← List.sum_map_add, ← h.total hnames]
  congr 1
  exact List.map_congr_left (fun row _ => by omega)

end Sums

theorem tally_conserved {coverage : Bool × List String} {t : Tally}
    (tallied : Tallied ((emptyCounters run.calibration.samples).rows.map Prod.fst) run.findings t)
    (hread : ∀ sample ∈ run.calibration.humanReviewed, ∃ r, readingOf run.observed sample.sampleId = .ok r) :
    Conserved run (tallyReport fmt run policy coverage t) := by
  have hnamed : ∀ f ∈ run.findings, f.1 ∈ (emptyCounters run.calibration.samples).rows.map Prod.fst :=
    fun f hf => findings_named hf
  have hjudged := tallied.judged hnamed
  refine ⟨t.counters.nodup, fun name => ?_, tallied.counters, fun row hrow => ?_, fun row hrow => ?_, ?_, ?_, ?_, ?_, ?_⟩
  · rw [← mem_emptyCounters, ← tallied.names]
    rfl
  · rw [tallied.counters row hrow]
    exact tallied_compared run.findings row.1
  · rw [tallied.counters row hrow, tallied_all]
    exact countP_findings hread row.1
  · rw [← length_findings hread, ← tallied.total hnamed]
    rfl
  · rw [← tallied.disagreements, ← tallied.compared]
    rfl
  · rw [← tallied.errors, ← hjudged]
    rfl
  · rw [← tallied.refusals, ← hjudged]
    rfl
  · rw [← tallied.missingEvidence, ← hjudged]
    rfl

/-- **A report counts each criterion of each reviewed sample once**, as compared or as what kept it from being
compared, and its rates are the quotients of these counts. -/
theorem report_conserved (built : buildCalibrationReport fmt run = .ok report) : Conserved run report := by
  obtain ⟨policy, -, t, tallied, hread, rfl⟩ := build_ok built
  have h := @tally_conserved fmt run policy
    (missingCoverage run.calibration policy = [], missingCoverage run.calibration policy) t tallied hread
  exact ⟨h.once, h.criteria, h.counted, h.compared, h.expected, h.total, h.disagreement, h.error, h.refusal, h.missingEvidence⟩

/-! ### Eligibility -/

/-- What a calibration has to show: enough samples of each kind that people reviewed, a judge that mostly agrees with them,
mostly answers and mostly has evidence, and calls that repeat and swap without a difference. -/
structure Earned (run : CalibrationRun) : Prop where
  pinned : run.calibration.judgeSpecSha256 ≠ none
  reviewed : 30 ≤ run.calibration.humanReviewed.length
  kinds : ∀ kind, 6 ≤ run.calibration.kindCount kind
  compared : 0 < run.findings.countP (fun f => f.2.isCompared)
  agreed : (run.findings.countP (fun f => f.2.disagrees) : ℚ) ≤ 15 / 100 * run.findings.countP (fun f => f.2.isCompared)
  answered : (run.findings.countP (fun f => f.2 = .error) : ℚ) ≤ 15 / 100 * run.findings.length
  accepted : (run.findings.countP (fun f => f.2 = .refusal) : ℚ) ≤ 15 / 100 * run.findings.length
  evidenced : (run.findings.countP (fun f => f.2 = .missingEvidence) : ℚ) ≤ 25 / 100 * run.findings.length
  repeated : (repeatedSamples run.calls).Nonempty
  stable : stableSamples run.calls = repeatedSamples run.calls
  swapped : (swappedSamples run.calls).Nonempty
  consistent : consistentSamples run.calls = swappedSamples run.calls

theorem tooHigh_nil {what : String} {n d : ℕ} {most : ℚ} (h : n ≤ d) :
    tooHigh fmt what (rate n d) most = [] ↔ (n : ℚ) ≤ most * d := by
  unfold rate
  split
  · rename_i hzero
    have hn : n = 0 := by omega
    simp [tooHigh, hzero, hn]
  · rename_i hd
    have hpos : (0 : ℚ) < d := Nat.cast_pos.2 (Nat.pos_of_ne_zero hd)
    simp [tooHigh, div_le_iff₀ hpos]

theorem rate_ne_none {n d : ℕ} : rate n d ≠ none ↔ 0 < d := by
  unfold rate
  split
  · rename_i h
    simp [h]
  · rename_i h
    simp [Nat.pos_of_ne_zero h]

/-- A judge is qualified when none of the thresholds is missed. -/
theorem reasons_nil : qualificationReasons fmt report = [] ↔
    report.policy.minHumanReviewedSamples ≤ report.humanReviewedCount ∧ report.judgeSpecSha256 ≠ none ∧
    report.covered = true ∧
    (report.disagreementRate ≠ none ∧
      tooHigh fmt "disagreement" report.disagreementRate report.policy.maxDisagreementRate = []) ∧
    (report.errorRate ≠ none ∧ tooHigh fmt "error" report.errorRate report.policy.maxErrorRate = []) ∧
    tooHigh fmt "refusal" report.refusalRate report.policy.maxRefusalRate = [] ∧
    tooHigh fmt "missing-evidence" report.missingEvidenceRate report.policy.maxMissingEvidenceRate = [] ∧
    (report.policy.requireRepeatStability = true → report.repeatStability.measured = true ∧
      report.policy.minRepeatStabilityRate ≤ report.repeatStability.rate.getD 0) ∧
    (report.policy.requirePositionSwapConsistency = true → report.positionSwap.measured = true ∧
      report.policy.minPositionSwapConsistencyRate ≤ report.positionSwap.rate.getD 0) := by
  have hone (p : Prop) [Decidable p] (text : String) : (if p then [text] else []) = [] ↔ ¬p := by
    by_cases h : p <;> simp [h]
  have helse (p : Prop) [Decidable p] (text : String) (rest : List String) :
      (if p then [text] else rest) = [] ↔ ¬p ∧ rest = [] := by
    by_cases h : p <;> simp [h]
  have hcoverage : (if report.covered = false then
      (if report.missing = [] then ["coverage was never measured"] else report.missing).map
        (fun missing => s!"calibration coverage is incomplete: {missing}") else []) = [] ↔ report.covered = true := by
    by_cases h : report.covered = false
    · by_cases hm : report.missing = [] <;> simp [h, hm]
    · simp [h]
  have hrequired (p : Prop) [Decidable p] (rest : List String) : (if p then rest else []) = [] ↔ (p → rest = []) := by
    by_cases h : p <;> simp [h]
  unfold qualificationReasons
  simp only [List.append_eq_nil_iff, hcoverage, hone, helse, hrequired, not_lt, Bool.not_eq_false, and_assoc, ne_eq]

/-- A part is all of it when its share is one. -/
theorem share_one {α : Type} {part whole : Finset α} (h : part ⊆ whole) :
    (1 : ℚ) ≤ part.card / whole.card ↔ whole.Nonempty ∧ part = whole := by
  rcases whole.eq_empty_or_nonempty with hempty | hsome
  · rw [hempty, Finset.card_empty]
    simp
  · have hpos : (0 : ℚ) < whole.card := Nat.cast_pos.2 hsome.card_pos
    rw [one_le_div hpos, Nat.cast_le]
    exact ⟨fun hle => ⟨hsome, Finset.eq_of_subset_of_card_le h hle⟩, fun heq => by rw [heq.2]⟩

/-- Every sample that was scored again is stable, and there is one. -/
theorem stability_met (calls : List CalibrationCall) :
    (repeatStability calls).measured = true ∧ 1 ≤ (repeatStability calls).rate.getD 0 ↔
      (repeatedSamples calls).Nonempty ∧ stableSamples calls = repeatedSamples calls := by
  have hpart : stableSamples calls ⊆ repeatedSamples calls := Finset.filter_subset _ _
  rw [repeatStability_rate, share_one hpart]
  refine ⟨fun h => h.2, fun h => ⟨?_, h⟩⟩
  have hlength := repeats_length calls
  unfold repeatStability
  dsimp only
  split
  · rename_i hnil
    rw [hnil] at hlength
    have hpos := h.1.card_pos
    rw [← hlength] at hpos
    cases hpos
  · rfl

/-- Every pair that was swapped is consistent, and there is one. -/
theorem consistency_met (calls : List CalibrationCall) :
    (positionSwap calls).measured = true ∧ 1 ≤ (positionSwap calls).rate.getD 0 ↔
      (swappedSamples calls).Nonempty ∧ consistentSamples calls = swappedSamples calls := by
  have hpart : consistentSamples calls ⊆ swappedSamples calls := Finset.filter_subset _ _
  rw [positionSwap_rate, share_one hpart]
  refine ⟨fun h => h.2, fun h => ⟨?_, h⟩⟩
  have hlength := swapGroups_length calls
  have hconsistent := consistent_length calls
  rw [h.2, ← hlength] at hconsistent
  -- no group is left out of the consistent ones
  have hall := List.length_filter_eq_length_iff.1 hconsistent
  unfold positionSwap
  dsimp only
  split
  · rename_i hnil
    rw [hnil] at hlength
    have hpos := h.1.card_pos
    rw [← hlength] at hpos
    cases hpos
  · rename_i hsome
    have hnone : ((swapGroups calls).rows.insertionSort (fun a b => a.1 ≤ b.1)).filterMap (fun row =>
        (swapVerdict calls row.2).reason?.map (fun reason => (row.1, reason))) = [] := by
      refine List.filterMap_eq_nil_iff.2 (fun row hrow => ?_)
      have hverdict := hall row ((List.perm_insertionSort _ _).mem_iff.1 hrow)
      rw [decide_eq_true_iff] at hverdict
      rw [hverdict]
      rfl
    rw [hnone]
    exact decide_eq_true (List.length_pos_iff.2 hsome)

/-- Nothing is missing when there are enough samples, and enough of each kind. -/
theorem missingCoverage_nil {calibration : CalibrationSet} :
    missingCoverage calibration policy = [] ↔
      policy.minHumanReviewedSamples ≤ calibration.humanReviewed.length ∧ ∀ kind, policy.least kind ≤ calibration.kindCount kind := by
  have hkinds (kind : SampleKind) : kind ∈ sampleKinds := by
    cases kind <;> decide
  unfold missingCoverage
  rw [List.append_eq_nil_iff, List.flatMap_eq_nil_iff]
  refine and_congr ?_ ⟨fun h kind => ?_, fun h kind _ => ?_⟩
  · split <;> simp_all
  · have hkind := h kind (hkinds kind)
    split at hkind
    · cases hkind
    · omega
  · rw [if_neg (by have := h kind; omega)]

/-- The thresholds are met when the calibration earned it. -/
theorem reasons_nil_iff_earned (registered : report.policy ∈ calibrationPolicies) (conserved : Conserved run report)
    (reviewed : report.humanReviewedCount = run.calibration.humanReviewed.length)
    (pinned : report.judgeSpecSha256 = run.calibration.judgeSpecSha256)
    (covered : report.covered = true ↔ missingCoverage run.calibration report.policy = [])
    (stability : report.repeatStability = repeatStability run.calls) (swap : report.positionSwap = positionSwap run.calls) :
    qualificationReasons fmt report = [] ↔ Earned run := by
  have hpolicy := thresholds registered
  have hleast : ∀ kind, report.policy.least kind = 6 := by
    intro kind
    rw [hpolicy]
    cases kind <;> rfl
  have hmin : report.policy.minHumanReviewedSamples = 30 := by rw [hpolicy]
  have hdisagrees : run.findings.countP (fun f => f.2.disagrees) ≤ run.findings.countP (fun f => f.2.isCompared) := by
    refine List.countP_mono_left (fun f _ h => ?_)
    revert h
    cases f.2 <;> simp [Finding.disagrees, Finding.isCompared]
  have hall (p : String × Finding → Bool) : run.findings.countP p ≤ run.findings.length := List.countP_le_length
  rw [reasons_nil, covered, missingCoverage_nil, conserved.disagreement, conserved.error, conserved.refusal,
    conserved.missingEvidence, stability, swap, tooHigh_nil hdisagrees, tooHigh_nil (hall _), tooHigh_nil (hall _),
    tooHigh_nil (hall _), rate_ne_none, rate_ne_none, reviewed, pinned]
  simp only [hleast, hmin]
  rw [hpolicy]
  simp only [forall_const]
  rw [stability_met, consistency_met]
  constructor
  · rintro ⟨hreviewed, hpinned, ⟨-, hkinds⟩, ⟨hcompared, hagreed⟩, ⟨-, hanswered⟩, haccepted, hevidenced,
      ⟨hrepeated, hstable⟩, hswapped, hconsistent⟩
    exact ⟨hpinned, hreviewed, hkinds, hcompared, hagreed, hanswered, haccepted, hevidenced, hrepeated, hstable, hswapped,
      hconsistent⟩
  · intro h
    exact ⟨h.reviewed, h.pinned, ⟨h.reviewed, h.kinds⟩, ⟨h.compared, h.agreed⟩,
      ⟨h.compared.trans_le (hall _), h.answered⟩, h.accepted, h.evidenced, ⟨h.repeated, h.stable⟩, h.swapped, h.consistent⟩

/-- **A judge is eligible exactly when its calibration earned it.** -/
theorem eligible_iff_earned (built : buildCalibrationReport fmt run = .ok report) :
    report.gateEligible = true ↔ Earned run := by
  obtain ⟨policy, registered, t, tallied, hread, rfl⟩ := build_ok built
  have hconserved := @tally_conserved fmt run policy
    (missingCoverage run.calibration policy = [], missingCoverage run.calibration policy) t tallied hread
  exact decide_eq_true_iff.trans
    (reasons_nil_iff_earned registered hconserved rfl rfl decide_eq_true_iff rfl rfl)

/-! ### What has no say -/

theorem swappedSamples_perm {calls other : List CalibrationCall} (h : calls.Perm other) :
    swappedSamples calls = swappedSamples other :=
  List.toFinset_eq_of_perm _ _ ((h.filter _).map _)

theorem consistentSamples_perm {calls other : List CalibrationCall} (h : calls.Perm other) :
    consistentSamples calls = consistentSamples other := by
  have hpadded {l l' : List CalibrationCall} (hl : l.Perm l') : Padded l' l :=
    ⟨⟨[], by rw [List.append_nil]; exact hl, fun c hc => by cases hc⟩⟩
  exact Finset.Subset.antisymm (consistent_padded (hpadded h)) (consistent_padded (hpadded h.symm))

/-- Two runs with the same reviewed samples and the same calls, each in any order, whose observations of these samples agree. -/
structure Alike (run other : CalibrationRun) : Prop where
  reviewed : run.calibration.humanReviewed.Perm other.calibration.humanReviewed
  pinned : run.calibration.judgeSpecSha256 = none ↔ other.calibration.judgeSpecSha256 = none
  observed : ∀ sample ∈ run.calibration.humanReviewed, run.observed.get sample.sampleId = other.observed.get sample.sampleId
  calls : run.calls.Perm other.calls

theorem Alike.symm {run other : CalibrationRun} (h : Alike run other) : Alike other run :=
  ⟨h.reviewed.symm, h.pinned.symm, fun sample hs => (h.observed sample (h.reviewed.mem_iff.2 hs)).symm, h.calls.symm⟩

theorem Alike.findings {run other : CalibrationRun} (h : Alike run other) : run.findings.Perm other.findings := by
  have hsame : run.findings = run.calibration.humanReviewed.flatMap (findingsOf other.observed) := by
    unfold CalibrationRun.findings
    rw [List.flatMap_def, List.flatMap_def]
    congr 1
    refine List.map_congr_left (fun sample hs => ?_)
    unfold findingsOf readingOf
    rw [h.observed sample hs]
  rw [hsame]
  exact h.reviewed.flatMap_right _

theorem Earned.alike {run other : CalibrationRun} (earned : Earned run) (h : Alike run other) : Earned other := by
  have hcount (p : String × Finding → Bool) : other.findings.countP p = run.findings.countP p :=
    (h.findings.countP_eq p).symm
  have hlength := h.findings.length_eq
  constructor
  · exact fun hnone => earned.pinned (h.pinned.2 hnone)
  · rw [← h.reviewed.length_eq]
    exact earned.reviewed
  · intro kind
    rw [CalibrationSet.kindCount, ← h.reviewed.countP_eq]
    exact earned.kinds kind
  · rw [hcount]
    exact earned.compared
  · rw [hcount, hcount]
    exact earned.agreed
  · rw [hcount, ← hlength]
    exact earned.answered
  · rw [hcount, ← hlength]
    exact earned.accepted
  · rw [hcount, ← hlength]
    exact earned.evidenced
  · rw [← repeatedSamples_perm h.calls]
    exact earned.repeated
  · rw [← repeatedSamples_perm h.calls, ← stableSamples_perm h.calls]
    exact earned.stable
  · rw [← swappedSamples_perm h.calls]
    exact earned.swapped
  · rw [← swappedSamples_perm h.calls, ← consistentSamples_perm h.calls]
    exact earned.consistent

/-- **Neither the order of calls and samples nor a sample that nobody reviewed has a say** in whether a judge is eligible. -/
theorem eligibility_blind {other : CalibrationRun} {report' : CalibrationReport}
    (built : buildCalibrationReport fmt run = .ok report) (built' : buildCalibrationReport fmt other = .ok report')
    (alike : Alike run other) : report.gateEligible = report'.gateEligible := by
  rw [Bool.eq_iff_iff, eligible_iff_earned built, eligible_iff_earned built']
  exact ⟨fun earned => earned.alike alike, fun earned => earned.alike alike.symm⟩

/-! ### The gate -/

/-- The configuration that a calibration is about. -/
def CalibrationSet.configuration (calibration : CalibrationSet) : Configuration where
  judgeSpecSha256 := calibration.judgeSpecSha256.getD ""
  rubricId := calibration.rubricId
  rubricVersion := calibration.rubricVersion
  model := calibration.model
  calibrationVersion := calibration.version

/-- A record says what the report says, of the configuration that was calibrated. -/
theorem record_ok {registration : Registration} {record : JudgeQualification} (h : registration.record fmt = .ok record) :
    ∃ report, buildCalibrationReport fmt registration.run = .ok report ∧ record.gateEligible = report.gateEligible ∧
      record.configuration = registration.run.calibration.configuration := by
  rw [Registration.record, except_bind_ok_iff] at h
  obtain ⟨report, built, h⟩ := h
  rw [qualificationRecord, except_bind_ok_iff] at h
  obtain ⟨-, -, h⟩ := h
  rw [except_bind_ok_iff] at h
  obtain ⟨-, -, h⟩ := h
  cases h
  obtain ⟨policy, -, t, -, -, rfl⟩ := build_ok built
  exact ⟨_, built, rfl, rfl⟩

/-- A lookup finds a record that was registered for what is asked. -/
theorem lookup_registered {history : List JudgeQualification} {q : Query} {record : JudgeQualification}
    (found : (QualificationRegistry.registered history).lookup q = some record) :
    record ∈ history ∧ q.configuration = some record.configuration := by
  have hkept {key : Key} (h : (QualificationRegistry.registered history).records.get key = some record) :
      record ∈ history ∧ record.key = key := by
    rw [get_registered] at h
    have hmem := List.mem_filter.1 (List.mem_of_getLast? h)
    exact ⟨hmem.1, of_decide_eq_true hmem.2⟩
  unfold QualificationRegistry.lookup at found
  split at found
  · cases found
  · rename_i configuration hconfiguration
    rw [hconfiguration]
    split at found
    · obtain ⟨hmem, hkey⟩ := hkept found
      exact ⟨hmem, congrArg some (congrArg Prod.fst hkey).symm⟩
    · obtain ⟨⟨key, last⟩, hlast, rfl⟩ := Option.map_eq_some_iff.1 found
      obtain ⟨hrow, hsame⟩ := List.mem_filter.1 (List.mem_of_getLast? hlast)
      obtain ⟨hmem, hkey⟩ := hkept (Table.get_of_mem hrow)
      have hconfigurationOf : last.configuration = configuration :=
        (congrArg Prod.fst hkey).trans (of_decide_eq_true hsame)
      exact ⟨hmem, congrArg some hconfigurationOf.symm⟩

/-- What stands behind an open gate: a calibration of the very configuration that is asked for, which met every threshold,
with samples that people took and reviewed, and pairs that each were presented in two real calls. -/
structure Backed (q : Query) (run : CalibrationRun) : Prop where
  configuration : q.configuration = some run.calibration.configuration
  earned : Earned run
  people : ∀ sample ∈ run.calibration.humanReviewed,
    sample.source = .human ∧ named sample.annotator = true ∧ named sample.reviewedBy = true ∧
      sample.rubricId = q.rubricId ∧ sample.rubricVersion = q.rubricVersion ∧ sample.model = q.model
  swaps : swappedSamples run.calls ⊆ realSwaps run.calls

end Reports

/-! ### A calibration that earns it -/

/-- A sample that two people reviewed. -/
def reviewedSample (kind : SampleKind) (sampleId : String) : CalibrationSample where
  sampleId := sampleId
  kind := kind
  source := .human
  status := .humanReviewed
  annotator := some "a"
  reviewedBy := some "b"
  reviewedAt := some "t"
  expectedCriteria := ⟨[("c", true)], by decide⟩
  expectedStatus := none
  rubricId := "safety-policy"
  rubricVersion := "1"
  model := "m"
  honest := fun _ => ⟨by decide, by decide, by decide, rfl, .inl (by simp)⟩

/-- Six samples of each kind. -/
def sampleNames : List (SampleKind × String) :=
  ["p1", "p2", "p3", "p4", "p5", "p6"].map (Prod.mk .clearPass) ++
    ["f1", "f2", "f3", "f4", "f5", "f6"].map (Prod.mk .clearFail) ++
    ["b1", "b2", "b3", "b4", "b5", "b6"].map (Prod.mk .borderline) ++
    ["m1", "m2", "m3", "m4", "m5", "m6"].map (Prod.mk .missingEvidence) ++
    ["i1", "i2", "i3", "i4", "i5", "i6"].map (Prod.mk .injection)

def sampleDigest : String := "ddddddddddddddddddddddddddddddddddddddddddddddddddddddddddddddddddddddd"

def sampleSet : CalibrationSet where
  calibrationId := "cal"
  version := "1"
  rubricId := "safety-policy"
  rubricVersion := "1"
  model := "m"
  judgeSpecSha256 := some sampleDigest
  contentSha256 := sampleDigest
  samples := sampleNames.map (fun row => reviewedSample row.1 row.2)
  once := by
    rw [List.map_map]
    decide +kernel
  oneConfiguration := by
    intro sample hs
    obtain ⟨row, -, rfl⟩ := List.mem_map.1 hs
    exact ⟨rfl, rfl, rfl⟩

/-- An answer that says passed. -/
def passedOutcome : Judge.JudgeOutcome where
  status := .ok
  judgements := [{ criterionId := "c", outcome := .scored, passed := some true }]
  reason := none
  injectionFlags := []
  rawExcerpt := []
  responseRef := none

/-- One sample scored twice and one pair shown both ways. -/
def sampleCalls : List CalibrationCall :=
  [{ callId := "1", sampleId := "p1", kind := .single, judgeJobId := "j", invocationId := "1", outcome := .succeeded,
      status := some .ok },
    { callId := "2", sampleId := "p1", kind := .repeated, judgeJobId := "j", invocationId := "2", outcome := .succeeded,
      status := some .ok },
    { callId := "3", sampleId := "p1", kind := .orderForward, judgeJobId := "j", invocationId := "3", outcome := .succeeded,
      status := some .ok, presentationOrder := ["x", "y"], winnerCandidateId := some "x" },
    { callId := "4", sampleId := "p1", kind := .orderReverse, judgeJobId := "j", invocationId := "4", outcome := .succeeded,
      status := some .ok, presentationOrder := ["y", "x"], winnerCandidateId := some "x" }]

def sampleRun : CalibrationRun where
  calibration := sampleSet
  observed := ⟨sampleNames.map (fun row => (row.2, .outcome passedOutcome)), by
    rw [List.map_map]
    decide +kernel⟩
  calls := sampleCalls
  policy := none
  generatedAt := none

def sampleFormat : Format := ⟨fun _ => "", fun _ => "", fun _ => "policy"⟩

/-- Computed at once, so that the result need not be written out. -/
theorem exists_of_toOption {ε α β : Type} {x : Except ε α} {f : α → β} {b : β} (h : x.toOption.map f = some b) :
    ∃ a, x = .ok a ∧ f a = b := by
  cases x with
  | error e => cases h
  | ok a => exact ⟨a, rfl, Option.some.inj h⟩

theorem sample_eligible :
    (buildCalibrationReport sampleFormat sampleRun).toOption.map (·.gateEligible) = some true := by decide +kernel

theorem sample_conserved : ∃ report, Conserved sampleRun report := by
  obtain ⟨report, built, -⟩ := exists_of_toOption sample_eligible
  exact ⟨report, report_conserved built⟩

theorem sample_earned : Earned sampleRun := by
  obtain ⟨report, built, eligible⟩ := exists_of_toOption sample_eligible
  exact (eligible_iff_earned built).1 eligible

/-- A sample that nobody reviewed. -/
def candidateSample : CalibrationSample :=
  { reviewedSample .injection "x" with
    source := .syntheticCandidate
    status := .candidate
    honest := fun h => by cases h }

/-- The run with one sample more, and its calls the other way round. -/
def otherRun : CalibrationRun :=
  { sampleRun with
    calibration := { sampleSet with
      samples := candidateSample :: sampleSet.samples
      once := by
        rw [List.map_cons, sampleSet, List.map_map]
        decide +kernel
      oneConfiguration := by
        intro sample hs
        rcases List.mem_cons.1 hs with rfl | hs
        · exact ⟨rfl, rfl, rfl⟩
        · exact sampleSet.oneConfiguration sample hs }
    calls := sampleCalls.reverse }

theorem sample_blind : ∃ report', buildCalibrationReport sampleFormat otherRun = .ok report' ∧ report'.gateEligible = true := by
  obtain ⟨report, built, eligible⟩ := exists_of_toOption sample_eligible
  have hother : (buildCalibrationReport sampleFormat otherRun).toOption.map (·.rubricId) = some "safety-policy" := by
    decide +kernel
  obtain ⟨report', built', -⟩ := exists_of_toOption hother
  have alike : Alike sampleRun otherRun :=
    ⟨List.Perm.refl _, Iff.rfl, fun _ _ => rfl, (List.reverse_perm sampleCalls).symm⟩
  exact ⟨report', built', (eligibility_blind built built' alike).symm.trans eligible⟩

/-- A pass that was scored by the judge. -/
def samplePass : Document :=
  ⟨[("source", .str "judge"), ("judge", .obj [("spec_sha256", .str sampleDigest), ("rubric_id", .str "safety-policy"),
    ("rubric_version", .str "1"), ("model", .str "m"), ("calibration_version", .str "1")])], by decide +kernel⟩

def sampleText : Value → String
  | .str text => text
  | _ => ""

end Motte.Calibration
