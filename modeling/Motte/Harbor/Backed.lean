import Motte.Harbor.Rewards

/-! When a score is backed by its evidence.

`Backed` says what is owed to a scored trial: each source that is there is well formed, any two
agree on the keys they share, the verifier reported no exception, and the rewards are those of the
file that is named. The text file is compared with the document only when the document
has its one key, and never with the summary; `Unnoticed` is what gets by. -/
namespace Motte.Harbor
open Foundation

/-! ### What the files hold -/

def Reading.Holds (r : Reading) (data : Bytes) (v : Value) : Prop :=
  ∃ text, r.decode data = some text ∧ r.loads text = .ok v

/-- A value is a finite number. -/
inductive FiniteReward : Value → Number → Prop
  | int {n : ℤ} {x : ℚ} (h : Number.binary64 n = .finite x) : FiniteReward (.int n) (.finite x)
  | float {bits : UInt64} {x : ℚ} (h : Number.ofBits bits = .finite x) : FiniteReward (.float bits) (.finite x)

/-- The members are finite numbers, these. -/
def Gives (members : List (String × Value)) (rewards : Rewards) : Prop :=
  List.Forall₂ (fun member row => member.1 = row.1 ∧ FiniteReward member.2 row.2) members rewards

section
variable (r : Reading) (files : Files) (trial : String)

def JsonGives (rewards : Rewards) : Prop :=
  ∃ data members, trialFile files trial "verifier/reward.json" = some data ∧ r.Holds data (.obj members) ∧ Gives members rewards

def TextGives (x : Number) : Prop :=
  ∃ data text, trialFile files trial "verifier/reward.txt" = some data ∧ r.decode data = some text ∧ strip text ≠ "" ∧
    r.float (strip text) = some x ∧ isFinite x = true

/-- The document of the result. -/
def ResultSays (payload : List (String × Value)) : Prop :=
  ∃ data, trialFile files trial "result.json" = some data ∧ r.Holds data (.obj payload)

def SummaryGives (rewards : Rewards) : Prop :=
  ∃ payload members, ResultSays r files trial payload ∧ rewardsSummary payload = some (.obj members) ∧ Gives members rewards

/-- The two numbers are within the tolerance. -/
def Close (x y : Number) : Prop := Number.isClose rewardTolerance x y = true

/-- The rewards agree on every key they share. -/
def Agree (a b : Rewards) : Prop := ∀ key x y, a.lookup key = some x → b.lookup key = some y → Close x y

/-- What is owed to a scored trial. -/
structure Backed (obs : Observation) : Prop where
  raw : (trialFile files trial "verifier/reward.json").isSome ∨ (trialFile files trial "verifier/reward.txt").isSome
  json : (trialFile files trial "verifier/reward.json").isSome → ∃ rewards, JsonGives r files trial rewards
  text : (trialFile files trial "verifier/reward.txt").isSome → ∃ x, TextGives r files trial x
  summary : ∀ payload raw, ResultSays r files trial payload → rewardsSummary payload = some raw → raw ≠ .null →
    ∃ rewards, SummaryGives r files trial rewards
  jsonText : ∀ a x, JsonGives r files trial a → TextGives r files trial x → Agree a [("reward", x)]
  jsonSummary : ∀ a b, JsonGives r files trial a → SummaryGives r files trial b → Agree a b
  textSummary : ∀ x b, TextGives r files trial x → SummaryGives r files trial b → Agree [("reward", x)] b
  calm : ∀ payload name, ResultSays r files trial payload → exceptionType r payload = some name → name ∉ verifierErrorExceptions
  source : obs.sourcePath = some "verifier/reward.json" ∧ JsonGives r files trial obs.rewards ∨
    obs.sourcePath = some "verifier/reward.txt" ∧ ∃ x, TextGives r files trial x ∧ obs.rewards = [("reward", x)]

/-- Every comparison that is made succeeds, and yet the text contradicts the document, which
has further keys, or the summary. -/
def Unnoticed : Prop :=
  ∃ result json text summary, resultDocument r files trial = .ok result ∧
    (∀ name, exceptionType r result.payload = some name → name ∉ verifierErrorExceptions) ∧
    summaryReading r result.payload = .ok (summary, none) ∧
    JsonGives r files trial json ∧ json ≠ [] ∧ TextGives r files trial text ∧
    (∀ rewards ∈ summary, agrees json rewards = true) ∧ agreesWithText json text = true ∧
    (¬ Agree json [("reward", text)] ∨ ∃ rewards ∈ summary, ¬ Agree [("reward", text)] rewards)

end

section
variable {r : Reading} {files : Files} {trial : String} {s : Sources} {obs : Observation}
  {label key : String} {members : List (String × Value)} {rewards : Rewards}

/-! ### Reading -/

theorem loadJson_ok {data : Bytes} {v : Value} : loadJson r data label = .ok (.ok v) ↔ r.Holds data v := by
  unfold loadJson Reading.Holds
  cases hdecode : r.decode data with
  | none => simp
  | some text =>
    simp only
    cases hload : r.loads text with
    | ok payload => simp [hload]
    | error e => cases e <;> simp [hload]

theorem rewardOf_int {n : ℤ} : rewardOf r label key (.int n) =
    match Number.binary64 n with
    | .finite x => .ok (.ok (.finite x))
    | _ => .error ⟨"OverflowError"⟩ := rfl

theorem rewardOf_float {bits : UInt64} (h : isFinite (.ofBits bits) = true) :
    rewardOf r label key (.float bits) = .ok (.ok (.ofBits bits)) := if_pos h

theorem rewardOf_ok {v : Value} {x : Number} : rewardOf r label key v = .ok (.ok x) ↔ FiniteReward v x := by
  constructor
  · intro h
    unfold rewardOf at h
    split at h
    · split at h <;> cases h
      rename_i hround
      exact .int hround
    · rename_i bits
      split at h <;> cases h
      rename_i hfinite
      cases hbits : Number.ofBits bits with
      | finite q => exact .float hbits
      | infinite negative => rw [hbits] at hfinite; cases hfinite
      | nan => rw [hbits] at hfinite; cases hfinite
    · cases h
  · intro h
    cases h with
    | int h =>
      rw [rewardOf_int, h]
    | @float bits x h =>
      have hfinite : isFinite (.ofBits bits) = true := by rw [h]; rfl
      rw [rewardOf_float hfinite, h]

theorem rewardsOf_ok : rewardsOf r label members = .ok (.ok rewards) ↔ Gives members rewards := by
  induction members generalizing rewards with
  | nil =>
    constructor
    · intro h
      cases h
      exact .nil
    · intro h
      cases h
      rfl
  | cons member members ih =>
    obtain ⟨key, v⟩ := member
    constructor
    · intro h
      unfold rewardsOf at h
      split at h
      · cases h
      · cases h
      · rename_i x hfirst
        split at h
        · cases h
        · cases h
        · rename_i rest hrest
          cases h
          exact .cons ⟨rfl, rewardOf_ok.1 hfirst⟩ (ih.1 hrest)
    · intro h
      cases h with
      | @cons _ row _ rest hrow hrest =>
        obtain ⟨key', x⟩ := row
        obtain ⟨rfl, hx⟩ := hrow
        unfold rewardsOf
        rw [rewardOf_ok.2 hx, ih.2 hrest]

theorem FiniteReward.unique {v : Value} {x y : Number} (h : FiniteReward v x) (h' : FiniteReward v y) : x = y := by
  cases h with
  | int h =>
    cases h' with
    | int h' => exact h.symm.trans h'
  | float h =>
    cases h' with
    | float h' => exact h.symm.trans h'

theorem Gives.unique {a b : Rewards} (ha : Gives members a) (hb : Gives members b) : a = b := by
  induction ha generalizing b with
  | nil =>
    cases hb
    rfl
  | cons hrow _ ih =>
    cases hb with
    | cons hrow' hrest' => rw [ih hrest', Prod.ext (hrow.1.symm.trans hrow'.1) (hrow.2.unique hrow'.2)]

/-- Rewards, or nothing when there are none. -/
def someRewards : Rewards → Option Rewards
  | [] => none
  | row :: rows => some (row :: rows)

theorem rewardFromPayload_ok {v : Value} {reading : RewardReading} (h : rewardFromPayload r v label = .ok reading)
    (herror : reading.error = none) :
    ∃ members rewards, v = .obj members ∧ Gives members rewards ∧ reading.rewards = someRewards rewards := by
  unfold rewardFromPayload at h
  split at h
  · cases h
    cases herror
  · cases h
    exact ⟨[], [], rfl, .nil, rfl⟩
  · rename_i members hne
    split at h
    · cases h
    · cases h
      cases herror
    · rename_i rewards hrewards
      cases h
      have hgives := rewardsOf_ok.1 hrewards
      refine ⟨members, rewards, rfl, hgives, ?_⟩
      cases hgives with
      | nil => exact absurd rfl hne
      | cons _ _ => rfl
  · cases h
    cases herror

theorem rewardFromPayload_gives (h : Gives members rewards) :
    ∃ reading, rewardFromPayload r (.obj members) label = .ok reading ∧ reading.error = none ∧
      reading.rewards = someRewards rewards := by
  cases h with
  | nil => exact ⟨_, rfl, rfl, rfl⟩
  | cons hrow hrest =>
    unfold rewardFromPayload
    simp only [rewardsOf_ok.2 (.cons hrow hrest)]
    exact ⟨_, rfl, rfl, rfl⟩

theorem jsonReading_ok {reading : RewardReading} (h : jsonReading r files trial = .ok reading) (herror : reading.error = none) :
    trialFile files trial "verifier/reward.json" = none ∧ reading.rewards = none ∨
      ∃ rewards, JsonGives r files trial rewards ∧ reading.rewards = someRewards rewards := by
  unfold jsonReading at h
  split at h
  · rename_i hfile
    cases h
    exact .inl ⟨hfile, rfl⟩
  · rename_i data hfile
    split at h
    · cases h
    · rename_i inner hinner
      cases h
      unfold rewardFromJson at hinner
      split at hinner
      · cases hinner
      · cases hinner
        cases herror
      · rename_i payload hload
        obtain ⟨members, rewards, rfl, hgives, hrewards⟩ := rewardFromPayload_ok hinner herror
        exact .inr ⟨rewards, ⟨data, members, hfile, loadJson_ok.1 hload, hgives⟩, hrewards⟩

theorem jsonReading_gives (h : JsonGives r files trial rewards) :
    ∃ reading, jsonReading r files trial = .ok reading ∧ reading.error = none ∧ reading.rewards = someRewards rewards := by
  obtain ⟨data, members, hfile, hholds, hgives⟩ := h
  obtain ⟨reading, hreading, herror, hrewards⟩ := @rewardFromPayload_gives r "verifier/reward.json" _ _ hgives
  have hload := (@loadJson_ok _ "verifier/reward.json" _ _).2 hholds
  unfold jsonReading rewardFromJson
  rw [hfile]
  simp only [hload, hreading]
  exact ⟨_, rfl, herror, hrewards⟩

theorem textReading_gives {x : Number} : textReading r files trial = some (.ok x) ↔ TextGives r files trial x := by
  unfold textReading TextGives
  cases hfile : trialFile files trial "verifier/reward.txt" with
  | none => simp
  | some data =>
    simp only [Option.map_some, Option.some.injEq, exists_and_left, exists_eq_left']
    unfold rewardFromText
    cases hdecode : r.decode data with
    | none => simp
    | some text =>
      simp only [Option.some.injEq, exists_eq_left']
      by_cases hblank : strip text = ""
      · simp [hblank]
      · rw [if_neg hblank]
        simp only [ne_eq, hblank, not_false_eq_true, true_and]
        cases hfloat : r.float (strip text) with
        | none => simp
        | some value =>
          simp only [Option.some.injEq]
          by_cases hfinite : isFinite value = true
          · rw [if_pos hfinite]
            constructor
            · intro h
              cases h
              exact ⟨rfl, hfinite⟩
            · rintro ⟨rfl, -⟩
              rfl
          · rw [if_neg hfinite]
            constructor
            · intro h
              cases h
            · rintro ⟨rfl, h⟩
              exact absurd h hfinite

/-- The document is the one that the result says, or it has nothing. -/
theorem resultDocument_ok {result : ResultDocument} (h : resultDocument r files trial = .ok result) :
    result.payload = [] ∨ ResultSays r files trial result.payload := by
  unfold resultDocument at h
  split at h
  · cases h
    exact .inl rfl
  · rename_i data hfile
    split at h
    · cases h
    · cases h
      exact .inl rfl
    · rename_i members hload
      cases h
      exact .inr ⟨data, hfile, loadJson_ok.1 hload⟩
    · cases h
      exact .inl rfl

theorem resultDocument_tells {result : ResultDocument} (h : resultDocument r files trial = .ok result)
    {payload : List (String × Value)} (htells : ResultSays r files trial payload) : result.payload = payload := by
  obtain ⟨data, hfile, hholds⟩ := htells
  unfold resultDocument at h
  rw [hfile] at h
  simp only [loadJson_ok.2 hholds] at h
  cases h
  rfl

theorem summaryReading_ok {payload : List (String × Value)} {summary : Option Rewards}
    (h : summaryReading r payload = .ok (summary, none)) :
    (∀ raw, rewardsSummary payload = some raw → raw = .null) ∧ summary = none ∨
      ∃ members rewards, rewardsSummary payload = some (.obj members) ∧ Gives members rewards ∧ summary = someRewards rewards := by
  unfold summaryReading at h
  split at h
  · rename_i hnone
    cases h
    refine .inl ⟨fun raw hraw => ?_, rfl⟩
    rw [hnone] at hraw
    cases hraw
  · rename_i hnull
    cases h
    refine .inl ⟨fun raw hraw => ?_, rfl⟩
    rw [hnull] at hraw
    cases hraw
    rfl
  · rename_i members hsummary
    split at h
    · cases h
    · rename_i reading hreading
      rw [Except.ok.injEq, Prod.mk.injEq] at h
      obtain ⟨members', rewards, hmembers, hgives, hrewards⟩ := rewardFromPayload_ok hreading h.2
      cases hmembers
      exact .inr ⟨members, rewards, hsummary, hgives, h.1.symm.trans hrewards⟩
  · cases h

theorem eq_of_someRewards {given : Rewards} (h : given ∈ someRewards rewards) : given = rewards := by
  cases rewards with
  | nil => cases h
  | cons row rows => exact (Option.some.inj h).symm

/-! ### The observation -/

/-- What must be so for a trial to be scored. -/
theorem observe_scored : (observe r files trial s).status = .scored ↔
    s.fault = none ∧ s.summaryConflict = none ∧ s.verifierException = none ∧ (s.rewards.getD []).isEmpty = false ∧
      s.rawRewardPresent = true := by
  unfold observe
  cases hfault : s.fault with
  | some error => exact iff_of_false (fun h => by cases h) (fun h => by cases h.1)
  | none =>
    by_cases hmissing : (!s.rawRewardPresent && (s.rewards.isSome || s.summary.isSome)) = true
    · simp only [if_pos hmissing]
      rw [Bool.and_eq_true, Bool.not_eq_true'] at hmissing
      refine iff_of_false (fun h => by cases h) (fun h => ?_)
      rw [hmissing.1] at h
      cases h.2.2.2.2
    · simp only [if_neg hmissing]
      cases hconflict : s.summaryConflict with
      | some error => exact iff_of_false (fun h => by cases h) (fun h => by cases h.2.1)
      | none =>
        cases hexception : s.verifierException with
        | some name =>
          refine iff_of_false (fun h => ?_) (fun h => by cases h.2.2.1)
          cases hrewards : s.rewards with
          | none =>
            rw [hrewards] at h
            cases h
          | some rewards =>
            rw [hrewards] at h
            cases rewards <;> cases h
        | none =>
          cases hrewards : s.rewards with
          | none => exact iff_of_false (fun h => by cases h) (fun h => by cases h.2.2.2.1)
          | some rewards =>
            cases rewards with
            | nil => exact iff_of_false (fun h => by cases h) (fun h => by cases h.2.2.2.1)
            | cons row rows =>
              have hraw : s.rawRewardPresent = true := by
                rw [hrewards] at hmissing
                simpa using hmissing
              exact iff_of_true rfl ⟨True.intro, rfl, rfl, rfl, hraw⟩

/-- A scored observation names the raw file that its rewards are from. -/
theorem observe_source (h : (observe r files trial s).status = .scored) {row : String × Number} {rows : Rewards}
    (hrewards : s.rewards = some (row :: rows)) :
    (observe r files trial s).rewards = row :: rows ∧ (observe r files trial s).sourcePath =
      some (if s.json.rewards.isSome then "verifier/reward.json" else "verifier/reward.txt") := by
  obtain ⟨hfault, hconflict, hexception, -, hraw⟩ := observe_scored.1 h
  unfold observe
  simp only [hfault, hconflict, hexception, hraw, hrewards, Bool.not_true, Bool.false_and, Bool.false_eq_true, if_false,
    Option.getD_some, List.isEmpty_cons, and_self]

theorem fault_none : s.fault = none ↔
    s.summaryFault = none ∧ s.json.error = none ∧ s.textFault = none ∧ s.textConflict = none := by
  unfold Sources.fault
  cases s.summaryFault with
  | some fault => simp
  | none =>
    cases s.json.error with
    | some fault => simp
    | none => cases s.textFault <;> simp

theorem textConflict_none {given : Rewards} {x : Number} (h : s.textConflict = none) (hrewards : s.rewards = some given)
    (htext : s.textReward = some x) : agreesWithText given x = true := by
  by_contra hdisagree
  unfold Sources.textConflict at h
  rw [hrewards, htext] at h
  simp [hdisagree] at h

theorem summaryConflict_none {given summary : Rewards} (h : s.summaryConflict = none) (hrewards : s.rewards = some given)
    (hsummary : s.summary = some summary) : agrees given summary = true := by
  by_contra hdisagree
  unfold Sources.summaryConflict at h
  rw [hrewards, hsummary] at h
  simp [hdisagree] at h

theorem agree_of_agrees {a b : Rewards} (h : agrees a b = true) : Agree a b := by
  unfold agrees at h
  rw [Bool.and_eq_true, List.all_eq_true] at h
  intro key x y hx hy
  have hmem : (key, x) ∈ a := by
    obtain ⟨before, after, hsplit, -⟩ := List.lookup_eq_some_iff.1 hx
    rw [hsplit]
    exact List.mem_append_right _ (.head _)
  have hclose := h.2 _ hmem
  rw [hy] at hclose
  exact hclose

theorem agree_nil (b : Rewards) : Agree [] b := by
  intro key x y hx
  cases hx

theorem agree_nil_right (a : Rewards) : Agree a [] := by
  intro key x y _ hy
  cases hy

/-- What was read is what the files hold. -/
structure Read (r : Reading) (files : Files) (trial : String) (s : Sources) : Prop where
  result : resultDocument r files trial = .ok s.result
  exception : s.exception = exceptionType r s.result.payload
  summary : summaryReading r s.result.payload = .ok (s.summary, s.summaryFault)
  json : jsonReading r files trial = .ok s.json
  jsonPresent : s.jsonPresent = (trialFile files trial "verifier/reward.json").isSome
  text : s.text = textReading r files trial

theorem readSources_ok (h : readSources r files trial = .ok s) : Read r files trial s := by
  unfold readSources at h
  cases hresult : resultDocument r files trial with
  | error e =>
    rw [hresult] at h
    cases h
  | ok result =>
    rw [hresult] at h
    cases hsummary : summaryReading r result.payload with
    | error e =>
      simp only [bind, Except.bind, hsummary] at h
      cases h
    | ok summary =>
      cases hjson : jsonReading r files trial with
      | error e =>
        simp only [bind, Except.bind, hsummary, hjson] at h
        cases h
      | ok json =>
        simp only [bind, Except.bind, hsummary, hjson, pure, Except.pure, Except.ok.injEq] at h
        subst h
        exact ⟨hresult, rfl, hsummary, hjson, rfl, rfl⟩

theorem readSources_of {result : ResultDocument} {summary : Option Rewards × Option Fault} {json : RewardReading}
    (hresult : resultDocument r files trial = .ok result) (hsummary : summaryReading r result.payload = .ok summary)
    (hjson : jsonReading r files trial = .ok json) : ∃ s, readSources r files trial = .ok s := by
  unfold readSources
  rw [hresult]
  simp only [bind, Except.bind, hsummary, hjson, pure, Except.pure]
  exact ⟨_, rfl⟩

namespace Read

theorem textReward_some (h : Read r files trial s) {x : Number} : s.textReward = some x ↔ TextGives r files trial x := by
  rw [← textReading_gives, ← h.text]
  unfold Sources.textReward
  cases s.text with
  | none => simp
  | some result => cases result <;> simp

theorem text_given (h : Read r files trial s) (hfault : s.textFault = none)
    (hfile : (trialFile files trial "verifier/reward.txt").isSome) : ∃ x, TextGives r files trial x := by
  have hsome : s.text.isSome := by
    rw [h.text]
    unfold textReading
    rw [Option.isSome_map]
    exact hfile
  obtain ⟨result, hresult⟩ := Option.isSome_iff_exists.1 hsome
  unfold Sources.textFault at hfault
  cases result with
  | ok x => exact ⟨x, textReading_gives.1 (h.text ▸ hresult)⟩
  | error fault =>
    rw [hresult] at hfault
    cases hfault

/-- The rewards are those of the document, if it has any. -/
theorem rewards_of_json (h : Read r files trial s) {a : Rewards}
    (ha : JsonGives r files trial a) (hne : a ≠ []) : s.rewards = some a := by
  obtain ⟨reading, hreading, -, hrewards⟩ := jsonReading_gives ha
  rw [h.json] at hreading
  cases hreading
  unfold Sources.rewards
  rw [hrewards]
  cases a with
  | nil => exact absurd rfl hne
  | cons row rows => rfl

/-- The rewards are that of the text, if the document has none. -/
theorem rewards_of_text (h : Read r files trial s) (hjson : s.json.rewards = none) {x : Number}
    (hx : TextGives r files trial x) : s.rewards = some [("reward", x)] := by
  unfold Sources.rewards
  rw [hjson, h.textReward_some.2 hx]
  rfl

theorem summary_of_gives (h : Read r files trial s) (hfault : s.summaryFault = none) {b : Rewards}
    (hb : SummaryGives r files trial b) (hne : b ≠ []) : s.summary = some b := by
  obtain ⟨payload, members, htells, hsummary, hgives⟩ := hb
  have hreading := h.summary
  rw [hfault, resultDocument_tells h.result htells] at hreading
  obtain ⟨hnull, -⟩ | ⟨members', rewards, hmembers, hgives', hrewards⟩ := summaryReading_ok hreading
  · cases hnull _ hsummary
  · rw [hsummary] at hmembers
    cases hmembers
    rw [hrewards, hgives'.unique hgives]
    cases b with
    | nil => exact absurd rfl hne
    | cons row rows => rfl

end Read

/-- A scored trial is backed, unless a contradiction goes unnoticed. -/
theorem backed_of_scored (hread : Read r files trial s) (hscored : (observe r files trial s).status = .scored)
    (hnoticed : ¬ Unnoticed r files trial) : Backed r files trial (observe r files trial s) := by
  obtain ⟨hfault, hconflict, hexception, hrewards, hraw⟩ := observe_scored.1 hscored
  obtain ⟨hsummaryFault, hjsonError, htextFault, htextConflict⟩ := fault_none.1 hfault
  have hcalm : ∀ name, exceptionType r s.result.payload = some name → name ∉ verifierErrorExceptions := by
    intro name hname hmem
    unfold Sources.verifierException at hexception
    rw [hread.exception, hname, Option.filter_some, if_pos (decide_eq_true hmem)] at hexception
    cases hexception
  have hsummary := hread.summary
  rw [hsummaryFault] at hsummary
  -- What is compared when the document has rewards, and what would go unnoticed then.
  have hdocument : ∀ a x, JsonGives r files trial a → a ≠ [] → TextGives r files trial x →
      Agree a [("reward", x)] ∧ ∀ rewards ∈ s.summary, Agree [("reward", x)] rewards := by
    intro a x ha hne hx
    have hgiven := hread.rewards_of_json ha hne
    by_contra hdisagree
    refine hnoticed ⟨s.result, a, x, s.summary, hread.result, hcalm, hsummary, ha, hne, hx,
      fun rewards hmem => summaryConflict_none hconflict hgiven hmem,
      textConflict_none htextConflict hgiven (hread.textReward_some.2 hx), ?_⟩
    rw [not_and_or] at hdisagree
    obtain hdisagree | hdisagree := hdisagree
    · exact .inl hdisagree
    · push Not at hdisagree
      exact .inr hdisagree
  obtain ⟨row, rows, hgiven⟩ : ∃ row rows, s.rewards = some (row :: rows) := by
    cases hcase : s.rewards with
    | none =>
      rw [hcase] at hrewards
      cases hrewards
    | some rewards =>
      cases rewards with
      | nil =>
        rw [hcase] at hrewards
        cases hrewards
      | cons row rows => exact ⟨row, rows, rfl⟩
  exact {
    raw := by
      unfold Sources.rawRewardPresent at hraw
      rw [Bool.or_eq_true, hread.jsonPresent, hread.text] at hraw
      unfold textReading at hraw
      rwa [Option.isSome_map] at hraw
    json := by
      intro hfile
      obtain ⟨hnone, -⟩ | ⟨a, ha, -⟩ := jsonReading_ok hread.json hjsonError
      · rw [hnone] at hfile
        cases hfile
      · exact ⟨a, ha⟩
    text := fun hfile => hread.text_given htextFault hfile
    summary := by
      intro payload raw htells hraw hne
      rw [resultDocument_tells hread.result htells] at hsummary
      obtain ⟨hnull, -⟩ | ⟨members, rewards, hmembers, hgives, -⟩ := summaryReading_ok hsummary
      · exact absurd (hnull raw hraw) hne
      · exact ⟨rewards, payload, members, htells, hmembers, hgives⟩
    jsonText := by
      intro a x ha hx
      by_cases hne : a = []
      · rw [hne]
        exact agree_nil _
      · exact (hdocument a x ha hne hx).1
    jsonSummary := by
      intro a b ha hb
      by_cases hne : a = []
      · rw [hne]
        exact agree_nil _
      · by_cases hne' : b = []
        · rw [hne']
          exact agree_nil_right _
        · exact agree_of_agrees (summaryConflict_none hconflict (hread.rewards_of_json ha hne)
            (hread.summary_of_gives hsummaryFault hb hne'))
    textSummary := by
      intro x b hx hb
      by_cases hne' : b = []
      · rw [hne']
        exact agree_nil_right _
      · have hb' := hread.summary_of_gives hsummaryFault hb hne'
        obtain ⟨-, hnone⟩ | ⟨a, ha, hjson⟩ := jsonReading_ok hread.json hjsonError
        · exact agree_of_agrees (summaryConflict_none hconflict (hread.rewards_of_text hnone hx) hb')
        · by_cases hne : a = []
          · rw [hne] at hjson
            exact agree_of_agrees (summaryConflict_none hconflict (hread.rewards_of_text hjson hx) hb')
          · exact (hdocument a x ha hne hx).2 b hb'
    calm := by
      intro payload name htells hname
      rw [← resultDocument_tells hread.result htells] at hname
      exact hcalm name hname
    source := by
      obtain ⟨hsame, hpath⟩ := observe_source hscored hgiven
      rw [hsame, hpath]
      obtain ⟨-, hnone⟩ | ⟨a, ha, hjson⟩ := jsonReading_ok hread.json hjsonError
      · right
        cases htext : s.textReward with
        | none =>
          unfold Sources.rewards at hgiven
          rw [hnone, htext] at hgiven
          cases hgiven
        | some x =>
          have hx := hread.textReward_some.1 htext
          rw [hread.rewards_of_text hnone hx, Option.some.injEq] at hgiven
          exact ⟨by rw [hnone]; rfl, x, hx, hgiven.symm⟩
      · cases a with
        | nil =>
          right
          cases htext : s.textReward with
          | none =>
            unfold Sources.rewards at hgiven
            rw [hjson, htext] at hgiven
            cases hgiven
          | some x =>
            have hx := hread.textReward_some.1 htext
            rw [hread.rewards_of_text hjson hx, Option.some.injEq] at hgiven
            exact ⟨by rw [hjson]; rfl, x, hx, hgiven.symm⟩
        | cons row' rows' =>
          left
          rw [hread.rewards_of_json ha (List.cons_ne_nil _ _), Option.some.injEq] at hgiven
          rw [← hgiven]
          exact ⟨by rw [hjson]; rfl, ha⟩ }

/-- What goes unnoticed is scored. -/
theorem Unnoticed.scored (h : Unnoticed r files trial) : ∃ obs, readVerifierObservation r files trial = .ok obs ∧
    obs.status = .scored ∧ ¬ Backed r files trial obs := by
  obtain ⟨result, json, x, summary, hresult, hcalm, hsummary, hjson, hne, hx, hagrees, htext, hdisagree⟩ := h
  obtain ⟨reading, hreading, herror, -⟩ := jsonReading_gives hjson
  obtain ⟨s, hs⟩ := readSources_of hresult hsummary hreading
  have hread := readSources_ok hs
  have hresult' := hread.result
  rw [hresult] at hresult'
  cases hresult'
  have hsummary' := hread.summary
  rw [hsummary, Except.ok.injEq, Prod.mk.injEq] at hsummary'
  obtain ⟨rfl, hfault⟩ := hsummary'
  have hreading' := hread.json
  rw [hreading] at hreading'
  cases hreading'
  have hgiven := hread.rewards_of_json hjson hne
  have htextReward := hread.textReward_some.2 hx
  refine ⟨observe r files trial s, ?_, observe_scored.2 ⟨fault_none.2 ⟨?_, herror, ?_, ?_⟩, ?_, ?_, ?_, ?_⟩, fun hbacked => ?_⟩
  · unfold readVerifierObservation
    rw [hs]
    rfl
  · exact hfault.symm
  · unfold Sources.textFault
    rw [hread.text, textReading_gives.2 hx]
  · unfold Sources.textConflict
    rw [hgiven, htextReward]
    exact if_pos htext
  · unfold Sources.summaryConflict
    rw [hgiven]
    cases hcase : s.summary with
    | none => rfl
    | some rewards => exact if_pos (hagrees rewards hcase)
  · unfold Sources.verifierException
    rw [hread.exception, Option.filter_eq_none_iff]
    intro name hname hmem
    exact hcalm name hname (of_decide_eq_true hmem)
  · rw [hgiven, Option.getD_some, List.isEmpty_eq_false_iff]
    exact hne
  · unfold Sources.rawRewardPresent
    obtain ⟨data, members, hfile, -⟩ := hjson
    rw [hread.jsonPresent, hfile]
    rfl
  · obtain hdisagree | ⟨rewards, hmem, hdisagree⟩ := hdisagree
    · exact hdisagree (hbacked.jsonText json x hjson hx)
    · obtain ⟨-, hnone⟩ | ⟨members, given, hmembers, hgives, hsome⟩ := summaryReading_ok hsummary
      · rw [hnone] at hmem
        cases hmem
      · rw [hsome] at hmem
        have htells : ResultSays r files trial s.result.payload := by
          refine (resultDocument_ok hresult).resolve_left (fun hnil => ?_)
          rw [hnil] at hmembers
          cases hmembers
        rw [eq_of_someRewards hmem] at hdisagree
        exact hdisagree (hbacked.textSummary x given hx ⟨_, members, htells, hmembers, hgives⟩)

end

/-! A document with two keys, whose reward is 1, and a text that says 0. -/

def sampleDocument : String := "\x7b\"reward\": 1.0, \"speed\": 2.0\x7d"

def sampleReading : Reading where
  decode data := if data.all (· < 128) then some (String.ofList (data.map (fun b => Char.ofNat b.toNat))) else none
  loads text :=
    if text = sampleDocument then .ok (.obj [("reward", .float 0x3ff0000000000000), ("speed", .float 0x4000000000000000)])
    else .error (.decode "Expecting value" 0)
  float text := if text = "0" then some (.finite 0) else none
  str _ := ""
  repr v := match v with
    | .str text => "'" ++ text ++ "'"
    | _ => ""
  sha256 _ := ""
  duration _ _ := .ok none

def sampleFiles : Files where
  rows := [("harbor/trials/one/verifier/reward.json", sampleDocument.toList.map (fun c => UInt8.ofNat c.toNat)),
    ("harbor/trials/one/verifier/reward.txt", [48])]
  nodup := by decide

theorem sample_unnoticed : Unnoticed sampleReading sampleFiles "one" := by
  have hfinite : ∀ {bits : UInt64}, isFinite (.ofBits bits) = true → FiniteReward (.float bits) (.ofBits bits) := by
    intro bits h
    cases hbits : Number.ofBits bits with
    | finite x => exact .float hbits
    | infinite negative => rw [hbits] at h; cases h
    | nan => rw [hbits] at h; cases h
  have hloads : sampleReading.loads sampleDocument =
      .ok (.obj [("reward", .float 0x3ff0000000000000), ("speed", .float 0x4000000000000000)]) := by
    simp only [sampleReading, if_true]
  have hstrip : strip "0" = "0" := by decide +kernel
  have hfloat : sampleReading.float (strip "0") = some (.finite 0) := by
    rw [hstrip]
    simp only [sampleReading, if_true]
  have hgives : JsonGives sampleReading sampleFiles "one"
      [("reward", .ofBits 0x3ff0000000000000), ("speed", .ofBits 0x4000000000000000)] := by
    refine ⟨_, [("reward", .float 0x3ff0000000000000), ("speed", .float 0x4000000000000000)], rfl,
      ⟨sampleDocument, by decide +kernel, hloads⟩, .cons ⟨rfl, hfinite (by decide +kernel)⟩ (.cons ⟨rfl, hfinite (by decide +kernel)⟩ .nil)⟩
  have htext : TextGives sampleReading sampleFiles "one" (.finite 0) :=
    ⟨[48], "0", rfl, by decide +kernel, by decide +kernel, hfloat, rfl⟩
  refine ⟨⟨[], none⟩, _, _, none, by rfl, (fun name h => by cases h), rfl, hgives, List.cons_ne_nil _ _, htext,
    (fun rewards h => by cases h), by decide +kernel, .inl (fun hagree => ?_)⟩
  have hclose := hagree "reward" _ _ rfl rfl
  have hnot : Number.isClose rewardTolerance (.ofBits 0x3ff0000000000000) (.finite 0) = false := by decide +kernel
  exact Bool.false_ne_true (hnot.symm.trans hclose)

/-- A scored trial need not be backed. -/
theorem scored_not_backed : ¬ ∀ r files trial obs, readVerifierObservation r files trial = .ok obs →
    obs.status = .scored → Backed r files trial obs := by
  intro h
  obtain ⟨obs, hobs, hscored, hnot⟩ := sample_unnoticed.scored
  exact hnot (h _ _ _ obs hobs hscored)

/-- A scored trial is backed by its evidence exactly when no contradiction of the text file goes unnoticed. -/
theorem scored_backed_iff (r : Reading) (files : Files) (trial : String) :
    (∀ obs, readVerifierObservation r files trial = .ok obs → obs.status = .scored → Backed r files trial obs) ↔
      ¬ Unnoticed r files trial := by
  constructor
  · intro h hunnoticed
    obtain ⟨obs, hobs, hscored, hnot⟩ := hunnoticed.scored
    exact hnot (h obs hobs hscored)
  · intro hnoticed obs hobs hscored
    unfold readVerifierObservation at hobs
    cases hs : readSources r files trial with
    | error e =>
      rw [hs] at hobs
      cases hobs
    | ok s =>
      rw [hs] at hobs
      cases hobs
      exact backed_of_scored (readSources_ok hs) hscored hnoticed

end Motte.Harbor
