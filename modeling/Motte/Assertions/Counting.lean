import Motte.Assertions.ResponsePolicy

/-! What the bounds of a response policy are held against.

The keys of a matcher are counted, and one item gives at most 64 of them. So a bound is held
against the true number of occurrences exactly when it does not lie between this number and
the number that is counted. -/
namespace Motte.Assertions
open Foundation

/-- The violations that a result lists. -/
def MetricResult.reported (result : MetricResult) : List Violation :=
  match result.details with
  | .violations violations _ => violations
  | _ => []

section
variable (result : MetricResult) (m : Matcher)

/-- The log was judged, and not found to match too often. -/
def PassesMax : Prop := result.status = .scored ∧ ∀ matched maximum, .countExceeded m matched maximum ∉ result.reported

def FailsMax : Prop := ∃ matched maximum, .countExceeded m matched maximum ∈ result.reported

/-- The log was judged as one that is complete, and not found to match too seldom. -/
def PassesMin : Prop := result.status = .scored ∧
  (∀ v ∈ result.reported, (∃ m' matched minimum, v = .missing m' matched minimum) ∨ ∃ requirements, v = .order requirements) ∧
  ∀ matched minimum, .missing m matched minimum ∉ result.reported

def FailsMin : Prop := ∃ matched minimum, .missing m matched minimum ∈ result.reported

/-- The bounds of a matcher are held against this number. -/
structure Exact (count : ℕ) : Prop where
  max : ∀ maximum, m.maxCount = some maximum → (PassesMax result m → count ≤ maximum) ∧ (FailsMax result m → maximum < count)
  min : ∀ minimum, m.minimum = .ok minimum → (PassesMin result m → minimum ≤ count) ∧ (FailsMin result m → count < minimum)

end

/-- Whatever else a policy requires and forbids, it holds the bounds of a matcher against the true number of occurrences
in the log. -/
def CountsExactly (ctx : Context) (names : List String) (timeoutSec : Option ℚ) (log : ActionLog) (m : Matcher) : Prop :=
  ∀ obs read metric logId r flags result, metric.source = "action_log" → metric.log = some logId → read logId = .ok r →
    r.log = log → logIncomplete obs r.ref = none → m ∈ metric.require → metric.flags = names → metric.timeoutSec = timeoutSec →
    policyFlags names = .ok flags → evaluateResponsePolicyWith ctx obs read metric = .ok result →
    Exact result m (matchCount ctx.lib (actionLogItems [log]) m flags (effectiveTimeout ctx timeoutSec))

/-- No bound lies between the number of occurrences and the number that is counted. -/
structure Uncapped (lib : Library) (items : List Item) (m : Matcher) (flags : RegexFlags) (seconds : ℚ) : Prop where
  max : ∀ maximum, m.maxCount = some maximum →
    matchCount lib items m flags seconds ≤ maximum ∨ maximum < cappedCount lib items m flags seconds
  min : ∀ minimum, m.minimum = .ok minimum →
    matchCount lib items m flags seconds < minimum ∨ minimum ≤ cappedCount lib items m flags seconds

/-! ### Violations -/

section
variable {require forbid : List (Matcher × List ℕ)} {m : Matcher}

theorem mem_exceeded {matched maximum : ℕ} : .countExceeded m matched maximum ∈ confirmedViolations require forbid ↔
    ∃ keys, (m, keys) ∈ require ∧ m.maxCount = some maximum ∧ maximum < keys.length ∧ matched = keys.length := by
  unfold confirmedViolations
  rw [List.mem_append, List.mem_filterMap, List.mem_filterMap]
  constructor
  · rintro (⟨⟨m', keys⟩, hmem, h⟩ | ⟨⟨m', keys⟩, _, h⟩)
    · cases hmax : m'.maxCount with
      | none =>
        rw [hmax] at h
        cases h
      | some bound =>
        rw [hmax] at h
        simp only at h
        split at h
        · rename_i hlt
          cases h
          exact ⟨keys, hmem, hmax, hlt, rfl⟩
        · cases h
    · simp only at h
      split at h <;> cases h
  · rintro ⟨keys, hmem, hmax, hlt, rfl⟩
    refine .inl ⟨(m, keys), hmem, ?_⟩
    simp only [hmax]
    rw [if_pos hlt]

theorem mem_missing {violations : List Violation} (h : missingMatches require = .ok violations) {matched minimum : ℕ} :
    .missing m matched minimum ∈ violations ↔
      ∃ keys, (m, keys) ∈ require ∧ m.minimum = .ok minimum ∧ keys.length < minimum ∧ matched = keys.length := by
  induction require generalizing violations with
  | nil =>
    cases h
    exact ⟨fun h => (by cases h), fun ⟨_, h, _⟩ => (by cases h)⟩
  | cons entry rest ih =>
    obtain ⟨m', keys⟩ := entry
    simp only [missingMatches, except_bind_ok_iff] at h
    obtain ⟨bound, hbound, others, hothers, h⟩ := h
    have later := ih hothers
    have this_one : (∃ keys', (m, keys') = (m', keys) ∧ m.minimum = .ok minimum ∧ keys'.length < minimum ∧ matched = keys'.length) ↔
        m = m' ∧ minimum = bound ∧ keys.length < bound ∧ matched = keys.length := by
      constructor
      · rintro ⟨keys', hsame, hmin, hlt, rfl⟩
        cases hsame
        cases hbound.symm.trans hmin
        exact ⟨rfl, rfl, hlt, rfl⟩
      · rintro ⟨rfl, rfl, hlt, rfl⟩
        exact ⟨keys, rfl, hbound, hlt, rfl⟩
    have split_mem : (∃ keys', (m, keys') ∈ (m', keys) :: rest ∧ m.minimum = .ok minimum ∧ keys'.length < minimum ∧
        matched = keys'.length) ↔ (m = m' ∧ minimum = bound ∧ keys.length < bound ∧ matched = keys.length) ∨
        .missing m matched minimum ∈ others := by
      rw [later, ← this_one]
      simp only [List.mem_cons, or_and_right, exists_or]
    rw [split_mem]
    split at h
    · rename_i hlt
      cases h
      rw [List.mem_cons]
      refine or_congr ⟨fun h => ?_, fun h => ?_⟩ Iff.rfl
      · cases h
        exact ⟨rfl, rfl, hlt, rfl⟩
      · obtain ⟨rfl, rfl, _, rfl⟩ := h
        rfl
    · rename_i hge
      cases h
      exact ⟨.inr, fun h => h.resolve_left (fun h => hge h.2.2.1)⟩

/-- Only missing matches are found missing. -/
theorem missingMatches_kind {violations : List Violation} (h : missingMatches require = .ok violations) :
    ∀ v ∈ violations, ∃ m matched minimum, v = .missing m matched minimum := by
  induction require generalizing violations with
  | nil =>
    cases h
    exact fun _ h => (by cases h)
  | cons entry rest ih =>
    obtain ⟨m', keys⟩ := entry
    simp only [missingMatches, except_bind_ok_iff] at h
    obtain ⟨bound, _, others, hothers, h⟩ := h
    split at h
    · cases h
      intro v hv
      rcases List.mem_cons.1 hv with rfl | hv
      · exact ⟨_, _, _, rfl⟩
      · exact ih hothers v hv
    · cases h
      exact ih hothers

theorem missing_mem_completeness {ordered : Bool} {violations : List Violation}
    (h : completenessViolations require ordered = .ok violations) {matched minimum : ℕ} :
    .missing m matched minimum ∈ violations ↔
      ∃ keys, (m, keys) ∈ require ∧ m.minimum = .ok minimum ∧ keys.length < minimum ∧ matched = keys.length := by
  simp only [completenessViolations, except_bind_ok_iff] at h
  obtain ⟨missing, hmissing, h⟩ := h
  rw [← mem_missing hmissing]
  split at h
  · rename_i hordered
    have hnone := List.isEmpty_iff.1 (Bool.and_eq_true_iff.1 hordered).1
    simp only [except_bind_ok_iff] at h
    obtain ⟨satisfied, _, h⟩ := h
    rw [hnone]
    split at h <;> cases h <;> simp
  · cases h
    exact Iff.rfl

/-- What is looked at in a complete stream only is missing matches and their order. -/
theorem completeness_kind {ordered : Bool} {violations : List Violation}
    (h : completenessViolations require ordered = .ok violations) :
    ∀ v ∈ violations, (∃ m matched minimum, v = .missing m matched minimum) ∨ ∃ requirements, v = .order requirements := by
  simp only [completenessViolations, except_bind_ok_iff] at h
  obtain ⟨missing, hmissing, h⟩ := h
  split at h
  · simp only [except_bind_ok_iff] at h
    obtain ⟨satisfied, _, h⟩ := h
    split at h
    · cases h
      exact fun _ h => (by cases h)
    · cases h
      exact fun v hv => .inr ⟨_, List.mem_singleton.1 hv⟩
  · cases h
    exact fun v hv => .inl (missingMatches_kind hmissing v hv)

/-- What is confirmed is of the other kinds. -/
theorem confirmed_kind : ∀ v ∈ confirmedViolations require forbid,
    ¬((∃ m matched minimum, v = .missing m matched minimum) ∨ ∃ requirements, v = .order requirements) := by
  intro v hv
  unfold confirmedViolations at hv
  rw [List.mem_append, List.mem_filterMap, List.mem_filterMap] at hv
  rcases hv with ⟨⟨m', keys⟩, _, h⟩ | ⟨⟨m', keys⟩, _, h⟩
  · simp only at h
    split at h
    · split at h
      · cases h
        rintro (⟨_, _, _, h⟩ | ⟨_, h⟩) <;> cases h
      · cases h
    · cases h
  · simp only at h
    split at h
    · cases h
    · cases h
      rintro (⟨_, _, _, h⟩ | ⟨_, h⟩) <;> cases h

/-! ### Verdicts -/

/-- A complete stream is scored by what is confirmed, and when this is nothing by what is missing. -/
theorem policyVerdict_complete {h : Header} {stream : PolicyStream} {ordered : Bool} {result : MetricResult}
    (hcomplete : stream.complete = true) (hresult : policyVerdict h stream ordered require forbid = .ok result) :
    result.status = .scored ∧
      ((confirmedViolations require forbid ≠ [] ∧ result.reported = confirmedViolations require forbid) ∨
        (confirmedViolations require forbid = [] ∧ completenessViolations require ordered = .ok result.reported)) := by
  unfold policyVerdict at hresult
  cases hconfirmed : confirmedViolations require forbid with
  | cons first rest =>
    rw [hconfirmed] at hresult
    cases hresult
    exact ⟨rfl, .inl ⟨List.cons_ne_nil _ _, rfl⟩⟩
  | nil =>
    rw [hconfirmed, hcomplete] at hresult
    obtain ⟨violations, hviolations, hresult⟩ := except_bind_ok_iff.1 hresult
    cases violations with
    | nil =>
      cases hresult
      exact ⟨rfl, .inr ⟨rfl, hviolations⟩⟩
    | cons first rest =>
      cases hresult
      exact ⟨rfl, .inr ⟨rfl, hviolations⟩⟩

/-- The bounds are held against the number that is counted. -/
theorem policyVerdict_counts {h : Header} {stream : PolicyStream} {ordered : Bool} {result : MetricResult} {keys : List ℕ}
    {counted : ℕ} (hcomplete : stream.complete = true) (hresult : policyVerdict h stream ordered require forbid = .ok result)
    (hmem : (m, keys) ∈ require) (hcount : ∀ keys, (m, keys) ∈ require → keys.length = counted) :
    (∀ maximum, m.maxCount = some maximum → (PassesMax result m → counted ≤ maximum) ∧ (FailsMax result m → maximum < counted)) ∧
    ∀ minimum, m.minimum = .ok minimum → (PassesMin result m → minimum ≤ counted) ∧ (FailsMin result m → counted < minimum) := by
  obtain ⟨_, ⟨hne, hreported⟩ | ⟨hnone, hmissing⟩⟩ := policyVerdict_complete hcomplete hresult
  · refine ⟨fun maximum hmax => ⟨fun hpass => ?_, fun ⟨k, bound, hfail⟩ => ?_⟩, fun minimum _ => ⟨fun hpass => ?_, fun ⟨k, bound, hfail⟩ => ?_⟩⟩
    · by_contra hlt
      rw [not_le] at hlt
      refine hpass.2 keys.length maximum ?_
      rw [hreported]
      exact mem_exceeded.2 ⟨keys, hmem, hmax, by rw [hcount keys hmem]; exact hlt, rfl⟩
    · rw [hreported] at hfail
      obtain ⟨keys, hmem, hbound, hlt, _⟩ := mem_exceeded.1 hfail
      cases hmax.symm.trans hbound
      rwa [hcount keys hmem] at hlt
    · obtain ⟨v, hv⟩ := List.exists_mem_of_ne_nil _ hne
      exact absurd (hpass.2.1 v (hreported ▸ hv)) (confirmed_kind v hv)
    · rw [hreported] at hfail
      exact absurd (.inl ⟨m, k, bound, rfl⟩) (confirmed_kind _ hfail)
  · refine ⟨fun maximum hmax => ⟨fun _ => ?_, fun ⟨k, bound, hfail⟩ => ?_⟩, fun minimum hmin => ⟨fun hpass => ?_, fun ⟨k, bound, hfail⟩ => ?_⟩⟩
    · by_contra hlt
      rw [not_le] at hlt
      have hin : .countExceeded m keys.length maximum ∈ confirmedViolations require forbid :=
        mem_exceeded.2 ⟨keys, hmem, hmax, by rw [hcount keys hmem]; exact hlt, rfl⟩
      rw [hnone] at hin
      cases hin
    · rcases completeness_kind hmissing _ hfail with ⟨_, _, _, h⟩ | ⟨_, h⟩ <;> cases h
    · by_contra hlt
      rw [not_le] at hlt
      exact hpass.2.2 keys.length minimum
        ((missing_mem_completeness hmissing).2 ⟨keys, hmem, hmin, by rw [hcount keys hmem]; exact hlt, rfl⟩)
    · obtain ⟨keys, hmem, hbound, hlt, _⟩ := (missing_mem_completeness hmissing).1 hfail
      cases hmin.symm.trans hbound
      rwa [hcount keys hmem] at hlt

end

/-! ### Evaluation -/

section
variable {ctx : Context} {names : List String} {flags : RegexFlags} {timeoutSec : Option ℚ} {log : ActionLog} {m : Matcher}

/-- The keys of the policy, when its checkers answer. -/
theorem keysOf_mem {lib : Library} {items : List Item} {seconds : ℚ} {matchers : List Matcher} {entries : List (Matcher × List ℕ)}
    (h : keysOf lib items flags seconds matchers = .ok entries) :
    entries.map Prod.fst = matchers ∧ ∀ entry ∈ entries, matcherKeys lib items entry.1 flags seconds = .ok entry.2 := by
  have hall := mapM_ok h
  clear h
  induction hall with
  | nil => exact ⟨rfl, fun _ h => (by cases h)⟩
  | cons hentry _ ih =>
    obtain ⟨keys, hkeys, hentry⟩ := except_bind_ok_iff.1 hentry
    cases hentry
    refine ⟨by rw [List.map_cons, ih.1], fun entry hmem => ?_⟩
    rcases List.mem_cons.1 hmem with rfl | hmem
    · exact hkeys
    · exact ih.2 entry hmem

theorem policyOptions_ok {metric : PolicyMetric} {options : PolicyOptions} (h : policyOptions metric = .ok options) :
    options.require = metric.require ∧ options.forbid = metric.forbid ∧ policyFlags metric.flags = .ok options.flags := by
  have list {key : String} {matchers given : List Matcher} (h : matcherList key matchers = .ok given) : given = matchers := by
    unfold matcherList at h
    split at h
    · cases h
    · exact (Except.ok.inj h).symm
  simp only [policyOptions, except_bind_ok_iff] at h
  obtain ⟨require, hrequire, forbid, hforbid, _, _, _, _, flags, hflags, h⟩ := h
  cases h
  exact ⟨list hrequire, list hforbid, hflags⟩

/-- An evaluation of a log that is scored comes from the keys of its matchers. -/
theorem judgePolicy_scored {lib : Library} {h : Header} {seconds : ℚ} {options : PolicyOptions} {stream : PolicyStream}
    {result : MetricResult} (hresult : judgePolicy lib h seconds options stream = .ok result) :
    (result.status = .evaluatorError ∧ result.reported = []) ∨
      ∃ require forbid, keysOf lib stream.items options.flags seconds options.require = .ok require ∧
        keysOf lib stream.items options.flags seconds options.forbid = .ok forbid ∧
        policyVerdict h stream options.ordered require forbid = .ok result := by
  unfold judgePolicy at hresult
  split at hresult
  · cases hresult
    exact .inl ⟨rfl, rfl⟩
  · cases hresult
    exact .inl ⟨rfl, rfl⟩
  · rename_i require forbid hkeys
    simp only [except_bind_ok_iff] at hkeys
    obtain ⟨require', hrequire, forbid', hforbid, hkeys⟩ := hkeys
    cases hkeys
    exact .inr ⟨_, _, hrequire, hforbid, hresult⟩

/-- The stream of a log that is read, unless the log is not named. -/
theorem policyStream_log {obs : Observation} {read : String → Except LogFailure ReadLog} {metric : PolicyMetric} {logId : String}
    {r : ReadLog} {reprText : String → String} (hsource : metric.source = "action_log") (hlog : metric.log = some logId)
    (hread : read logId = .ok r) : policyStream ctx obs read reprText metric =
      if logId = "" then .error (metric.header.configError "source action_log requires log")
      else .ok { source := "action_log", items := actionLogItems [r.log], refs := [r.ref.artifactId]
                 complete := (logIncomplete obs r.ref).isNone, scope := r.ref.monitoredScope
                 incompleteReason := logIncomplete obs r.ref } := by
  unfold policyStream
  simp only [hsource, hlog, hread]
  rw [if_neg (by decide), if_neg (by decide), if_pos trivial]

theorem exact_of_unscored {result : MetricResult} {count : ℕ} (hstatus : result.status = .evaluatorError)
    (hreported : result.reported = []) : Exact result m count := by
  have unscored : ¬result.status = .scored := by
    rw [hstatus]
    decide
  have silent (v : Violation) : v ∉ result.reported := by
    rw [hreported]
    exact List.not_mem_nil
  exact ⟨fun _ _ => ⟨fun h => absurd h.1 unscored, fun ⟨_, _, h⟩ => absurd h (silent _)⟩,
    fun _ _ => ⟨fun h => absurd h.1 unscored, fun ⟨_, _, h⟩ => absurd h (silent _)⟩⟩

theorem exact_of_uncapped (hflags : policyFlags names = .ok flags)
    (huncapped : Uncapped ctx.lib (actionLogItems [log]) m flags (effectiveTimeout ctx timeoutSec)) :
    CountsExactly ctx names timeoutSec log m := by
  intro obs read metric logId r flags' result hsource hlog hread hsame hcomplete hmem hnames htimeout hflags' hresult
  cases hflags.symm.trans hflags'
  subst hsame
  unfold evaluateResponsePolicyWith at hresult
  split at hresult
  · cases hresult
    exact exact_of_unscored rfl rfl
  rename_i options hoptions
  split at hresult
  · cases hresult
    exact exact_of_unscored rfl rfl
  rw [policyStream_log hsource hlog hread, hcomplete] at hresult
  by_cases hnamed : logId = ""
  · rw [if_pos hnamed] at hresult
    cases hresult
    exact exact_of_unscored rfl rfl
  rw [if_neg hnamed] at hresult
  obtain ⟨hrequire, _, hgiven⟩ := policyOptions_ok hoptions
  rw [hnames, hflags] at hgiven
  rcases judgePolicy_scored hresult with ⟨hstatus, hreported⟩ | ⟨require, forbid, hkeys, _, hverdict⟩
  · exact exact_of_unscored hstatus hreported
  rw [← Except.ok.inj hgiven, htimeout, hrequire] at hkeys
  obtain ⟨hmatchers, heach⟩ := keysOf_mem hkeys
  rw [← hmatchers] at hmem
  obtain ⟨⟨m', keys⟩, hentry, rfl⟩ := List.mem_map.1 hmem
  have counts := policyVerdict_counts rfl hverdict hentry (fun keys hin => length_matcherKeys (heach _ hin))
  have le := @cappedCount_le ctx.lib (actionLogItems [r.log]) m' flags (effectiveTimeout ctx timeoutSec)
  refine ⟨fun maximum hmax => ⟨fun hpass => ?_, fun hfail => ?_⟩, fun minimum hmin => ⟨fun hpass => ?_, fun hfail => ?_⟩⟩
  · exact (huncapped.max maximum hmax).resolve_right (not_lt.2 ((counts.1 maximum hmax).1 hpass))
  · exact lt_of_lt_of_le ((counts.1 maximum hmax).2 hfail) le
  · exact le_trans ((counts.2 minimum hmin).1 hpass) le
  · exact (huncapped.min minimum hmin).resolve_right (not_le.2 ((counts.2 minimum hmin).2 hfail))

/-! ### The other direction -/

/-- The matcher without its bounds. -/
def Matcher.bare (m : Matcher) : Matcher := { m with minCount := none, maxCount := none }

theorem bare_problem (h : m.problem = none) : m.bare.problem = none := by
  unfold Matcher.problem at h ⊢
  split at h
  · cases h
  rename_i hany
  split at h
  · cases h
  rename_i hfind
  refine (if_neg hany).trans ?_
  split
  · rename_i field hsome
    cases hfind.symm.trans hsome
  · rfl

/-- A reference to a log that is complete. -/
def wholeRef : EvidenceRef :=
  { evidenceId := "log", kind := .actionLog, owner := ⟨"run", "case", none, none⟩, step := 1, artifactId := "log.json"
    artifactSha256 := "", payloadSchema := .obj [], schemaSha256 := "", complete := true, monitoredScope := ["actions"] }

/-- An observation that covers everything. -/
def wholeObservation : Observation :=
  { runId := "run", caseId := "case", attemptId := none, finalOutput := .null, coverageComplete := true, artifactRefs := []
    toolCalls := [], workspace := none, workflowEvidence := [] }

/-- The policy of one matcher. -/
def lonePolicy (names : List String) (timeoutSec : Option ℚ) (m : Matcher) (forbid : List Matcher) : PolicyMetric :=
  { header := ⟨"metric", none⟩, log := some "log", require := [m], forbid, ordered := false, flags := names, timeoutSec }

theorem evaluate_lonePolicy {keys : List ℕ} {forbid : List Matcher} {entries : List (Matcher × List ℕ)} (hvalid : m.problem = none)
    (hforbid : forbid.findSome? Matcher.problem = none) (hflags : policyFlags names = .ok flags)
    (htimeout : ∀ seconds ∈ timeoutSec, 0 < seconds) (hlive : ctx.expired = false)
    (hkeys : matcherKeys ctx.lib (actionLogItems [log]) m flags (effectiveTimeout ctx timeoutSec) = .ok keys)
    (hentries : keysOf ctx.lib (actionLogItems [log]) flags (effectiveTimeout ctx timeoutSec) forbid = .ok entries) :
    ∃ stream, stream.complete = true ∧
      evaluateResponsePolicyWith ctx wholeObservation (fun _ => .ok ⟨wholeRef, log⟩) (lonePolicy names timeoutSec m forbid) =
        policyVerdict ⟨"metric", none⟩ stream false [(m, keys)] entries := by
  have hrequire : matcherList "require" [m] = .ok [m] := by
    unfold matcherList
    rw [List.findSome?_cons, hvalid]
    rfl
  have hallowed : matcherList "forbid" forbid = .ok forbid := by
    unfold matcherList
    rw [hforbid]
  have hoptions : policyOptions (lonePolicy names timeoutSec m forbid) = .ok ⟨[m], forbid, false, flags⟩ := by
    simp only [policyOptions, except_bind_ok_iff]
    exact ⟨[m], hrequire, forbid, hallowed, (), ensure_ok_iff.2 rfl, (), ensure_ok_iff.2 htimeout, flags, hflags, rfl⟩
  have hone : keysOf ctx.lib (actionLogItems [log]) flags (effectiveTimeout ctx timeoutSec) [m] = .ok [(m, keys)] := by
    simp only [keysOf, List.mapM_cons, List.mapM_nil, hkeys]
    rfl
  refine ⟨{ source := "action_log", items := actionLogItems [log], refs := ["log.json"], complete := true, scope := ["actions"] },
    rfl, ?_⟩
  unfold evaluateResponsePolicyWith
  rw [hoptions]
  simp only
  rw [if_neg (by rw [hlive]; decide), policyStream_log rfl rfl rfl, if_neg (by decide)]
  simp only [judgePolicy]
  have hone' : keysOf ctx.lib (actionLogItems [log]) flags (effectiveTimeout ctx (lonePolicy names timeoutSec m forbid).timeoutSec) [m] =
      .ok [(m, keys)] := hone
  have hentries' : keysOf ctx.lib (actionLogItems [log]) flags
      (effectiveTimeout ctx (lonePolicy names timeoutSec m forbid).timeoutSec) forbid = .ok entries := hentries
  simp only [hone', hentries']
  rfl

theorem cappedCount_pos {lib : Library} {items : List Item} {seconds : ℚ} (h : 0 < matchCount lib items m flags seconds) :
    0 < cappedCount lib items m flags seconds := by
  unfold matchCount at h
  unfold cappedCount
  generalize items.filter (m.Selects lib flags seconds) = selected at h
  induction selected with
  | nil => cases h
  | cons item rest ih =>
    rw [List.map_cons, List.sum_cons] at h
    rw [List.map_cons, List.sum_cons, offsetLimit]
    by_cases hrest : 0 < (rest.map (occurrences lib m)).sum
    · exact Nat.add_pos_right _ (ih hrest)
    · omega

/-- A bound of a valid matcher that more than this many matches violate from above is none that they violate from below. -/
theorem not_exceeded_of_missing {minimum matched : ℕ} (hvalid : m.problem = none) (hmin : m.minimum = .ok minimum)
    (hmissing : matched < minimum) : ∀ maximum, m.maxCount = some maximum → ¬maximum < matched := by
  intro maximum hmax hlt
  unfold Matcher.minimum at hmin
  split at hmin
  · cases hmin
    omega
  · rename_i bound hbound
    cases hmin
    unfold Matcher.problem at hvalid
    rw [hbound, hmax] at hvalid
    split at hvalid
    · cases hvalid
    split at hvalid
    · cases hvalid
    simp only at hvalid
    rw [if_pos (by omega)] at hvalid
    cases hvalid
  · cases hmin

theorem uncapped_of_exact {keys : List ℕ} (hvalid : m.problem = none) (hflags : policyFlags names = .ok flags)
    (htimeout : ∀ seconds ∈ timeoutSec, 0 < seconds) (hlive : ctx.expired = false)
    (hkeys : matcherKeys ctx.lib (actionLogItems [log]) m flags (effectiveTimeout ctx timeoutSec) = .ok keys)
    (hexact : CountsExactly ctx names timeoutSec log m) :
    Uncapped ctx.lib (actionLogItems [log]) m flags (effectiveTimeout ctx timeoutSec) := by
  have counted := length_matcherKeys hkeys
  have exact {forbid : List Matcher} {result : MetricResult}
      (h : evaluateResponsePolicyWith ctx wholeObservation (fun _ => .ok ⟨wholeRef, log⟩) (lonePolicy names timeoutSec m forbid) =
        .ok result) : Exact result m (matchCount ctx.lib (actionLogItems [log]) m flags (effectiveTimeout ctx timeoutSec)) :=
    hexact _ _ _ "log" _ _ _ rfl rfl rfl rfl rfl (List.mem_singleton_self m) rfl rfl hflags h
  constructor
  · intro maximum hmax
    by_contra hbound
    rw [not_or, not_le, not_lt, ← counted] at hbound
    obtain ⟨htoo, hlow⟩ := hbound
    have hsome : keys ≠ [] := by
      have hpos := cappedCount_pos (Nat.lt_of_le_of_lt (Nat.zero_le _) htoo)
      rw [← counted] at hpos
      exact List.ne_nil_of_length_pos hpos
    -- The bare matcher is forbidden, so that the log is scored without a look at what is missing.
    have hentries : keysOf ctx.lib (actionLogItems [log]) flags (effectiveTimeout ctx timeoutSec) [m.bare] =
        .ok [(m.bare, keys)] := by
      have hbare : matcherKeys ctx.lib (actionLogItems [log]) m.bare flags (effectiveTimeout ctx timeoutSec) = .ok keys := hkeys
      simp only [keysOf, List.mapM_cons, List.mapM_nil, hbare]
      rfl
    have hforbid : [m.bare].findSome? Matcher.problem = none := by
      rw [List.findSome?_cons, bare_problem hvalid]
      rfl
    obtain ⟨stream, hcomplete, heval⟩ := evaluate_lonePolicy hvalid hforbid hflags htimeout hlive hkeys hentries
    have quiet : confirmedViolations [(m, keys)] [(m.bare, keys)] = [.forbidden m.bare keys.length] := by
      unfold confirmedViolations
      simp only [List.filterMap_cons, List.filterMap_nil, hmax]
      rw [if_neg (by omega), if_neg (by simpa using hsome)]
      rfl
    have hverdict : ∃ result, policyVerdict ⟨"metric", none⟩ stream false [(m, keys)] [(m.bare, keys)] = .ok result := by
      unfold policyVerdict
      rw [quiet]
      exact ⟨_, rfl⟩
    obtain ⟨result, hverdict⟩ := hverdict
    obtain ⟨hstatus, hreported⟩ := policyVerdict_complete hcomplete hverdict
    rw [quiet] at hreported
    have hpass : PassesMax result m := by
      refine ⟨hstatus, fun matched bound hin => ?_⟩
      rcases hreported with ⟨_, h⟩ | ⟨h, _⟩
      · rw [h] at hin
        cases List.mem_singleton.1 hin
      · cases h
    exact absurd (((exact (heval.trans hverdict)).max maximum hmax).1 hpass) (not_le.2 htoo)
  · intro minimum hmin
    by_contra hbound
    rw [not_or, not_lt, not_le, ← counted] at hbound
    obtain ⟨henough, hfew⟩ := hbound
    have hforbid : ([] : List Matcher).findSome? Matcher.problem = none := rfl
    have hentries : keysOf ctx.lib (actionLogItems [log]) flags (effectiveTimeout ctx timeoutSec) [] = .ok [] := rfl
    obtain ⟨stream, hcomplete, heval⟩ := evaluate_lonePolicy hvalid hforbid hflags htimeout hlive hkeys hentries
    have quiet : confirmedViolations [(m, keys)] [] = [] := by
      unfold confirmedViolations
      simp only [List.filterMap_cons, List.filterMap_nil]
      cases hmax : m.maxCount with
      | none => rfl
      | some maximum =>
        simp only
        rw [if_neg (not_exceeded_of_missing hvalid hmin hfew maximum hmax)]
        rfl
    have hmissing : completenessViolations [(m, keys)] false = .ok [.missing m keys.length minimum] := by
      have hone : missingMatches [(m, keys)] = .ok [.missing m keys.length minimum] := by
        simp only [missingMatches, except_bind_ok_iff]
        exact ⟨minimum, hmin, [], rfl, by rw [if_pos hfew]; rfl⟩
      unfold completenessViolations
      rw [hone]
      rfl
    have hverdict : ∃ result, policyVerdict ⟨"metric", none⟩ stream false [(m, keys)] [] = .ok result := by
      unfold policyVerdict
      rw [quiet, hcomplete]
      simp only [hmissing]
      exact ⟨_, rfl⟩
    obtain ⟨result, hverdict⟩ := hverdict
    obtain ⟨_, ⟨h, _⟩ | ⟨_, hreported⟩⟩ := policyVerdict_complete hcomplete hverdict
    · exact h quiet
    · rw [hmissing] at hreported
      have hfail : FailsMin result m := ⟨keys.length, minimum, by rw [← Except.ok.inj hreported]; exact List.mem_singleton_self _⟩
      exact absurd (((exact (heval.trans hverdict)).min minimum hmin).2 hfail) (not_lt.2 henough)

end

/-- On a complete log the bounds of a matcher are held against the true number of its occurrences exactly when none of
them lies between this number and the number with at most 64 occurrences of each action. -/
theorem counts_exactly_iff {ctx : Context} {names : List String} {flags : RegexFlags} {timeoutSec : Option ℚ} {log : ActionLog}
    {m : Matcher} {keys : List ℕ} (hvalid : m.problem = none) (hflags : policyFlags names = .ok flags)
    (htimeout : ∀ seconds ∈ timeoutSec, 0 < seconds) (hlive : ctx.expired = false)
    (hkeys : matcherKeys ctx.lib (actionLogItems [log]) m flags (effectiveTimeout ctx timeoutSec) = .ok keys) :
    CountsExactly ctx names timeoutSec log m ↔
      Uncapped ctx.lib (actionLogItems [log]) m flags (effectiveTimeout ctx timeoutSec) :=
  ⟨uncapped_of_exact hvalid hflags htimeout hlive hkeys, exact_of_uncapped hflags⟩

/-! An action whose detail has 65 matches, and a bound of 64. -/

def plainLibrary : Library where
  sha256 _ := ""
  loads _ := .error "JSONDecodeError: Expecting value: line 1 column 1 (char 0)"
  schemaDigest _ := ""
  validateSchema _ _ := .checked []
  validateLog _ := .ok ⟨[], .nil⟩
  dumps _ := "\x7b\x7d"
  lower text := String.ofList (text.toList.map Char.toLower)
  repr text := "'" ++ text ++ "'"
  search _ _ _ _ := .found false
  seconds _ := "2.0"

def plainContext : Context :=
  { lib := plainLibrary, reader := none, maxArtifactBytes := 16000000, regexTimeout := 2, expired := false, remaining := none }

def longLog : ActionLog where
  actions := [{ seq := 1, step := 1, action := "note", target := none, status := .succeeded, callId := none
                detail := some (String.ofList (List.replicate 65 'a')) }]
  ordered := List.pairwise_singleton _ _

def sixtyFour : Matcher := { text := some "a", maxCount := some 64 }

theorem longLog_capped : ∃ keys, matcherKeys plainContext.lib (actionLogItems [longLog]) sixtyFour {} 2 = .ok keys := by
  refine ⟨((List.range 64).map (fun offset => 1000000 + offset)), ?_⟩
  decide +kernel

theorem counts_exactly_iff_long : CountsExactly plainContext [] none longLog sixtyFour ↔
    Uncapped plainContext.lib (actionLogItems [longLog]) sixtyFour {} (effectiveTimeout plainContext none) := by
  obtain ⟨keys, hkeys⟩ := longLog_capped
  exact counts_exactly_iff (by decide +kernel) rfl (by simp) rfl hkeys

/-- More matches than the cap can pass a bound. -/
theorem bound_passed : ¬ ∀ ctx names timeoutSec log m, Matcher.problem m = none → m.text.isSome →
    CountsExactly ctx names timeoutSec log m := by
  intro hall
  obtain ⟨keys, hkeys⟩ := longLog_capped
  have hexact := hall plainContext [] none longLog sixtyFour (by decide +kernel) rfl
  have huncapped : Uncapped plainContext.lib (actionLogItems [longLog]) sixtyFour {} (effectiveTimeout plainContext none) :=
    uncapped_of_exact (by decide +kernel) rfl (by simp) rfl hkeys hexact
  have htrue : matchCount plainContext.lib (actionLogItems [longLog]) sixtyFour {} (effectiveTimeout plainContext none) = 65 := by
    decide +kernel
  have hcapped : cappedCount plainContext.lib (actionLogItems [longLog]) sixtyFour {} (effectiveTimeout plainContext none) = 64 := by
    decide +kernel
  rcases huncapped.max 64 rfl with h | h
  · rw [htrue] at h
    omega
  · rw [hcapped] at h
    omega

end Motte.Assertions
